import Disorder.Server.Frame

/-! What a connection holds that other connections depend on: a playlist lock, and an RTP stream
registered with the RTP code. Connections arrive (`listen_callback`), run the commands that take
and give these back, and are torn down (end of file in `reader_callback` or
`logging_reader_callback`, `reader_error`, `writer_error`), in any order and any number of times.

Locks: no two connections on the list hold the same playlist's lock; `playlist-set` changes a
playlist only on the connection holding its lock; and once no listed connection holds a lock (its
holder unlocked it or left the list), a permitted `playlist-lock` for it succeeds.
`remove_connection` leaves a departed connection's lock in its object: only the list is searched.

RTP: the destinations registered with `rtp_request` and not yet withdrawn with
`rtp_request_cancel` are, as a multiset, those of the listed connections whose `rtp_requested` is
set. A second request replaces the first, teardown withdraws the request once, and a command from a
connection that has left the list cannot register one, as its reply finds no writer and halts the
server. -/

namespace Disorder.Server

variable {σ : Type} (B : Backend σ)

/-! ### Connections arriving, running commands and leaving -/

/-- How a connection is torn down: end of file, `reader_error`, or `writer_error` with an
error number. -/
inductive Teardown where
  | eof
  | readerError (errno : Nat)
  | writerError (errno : Nat)
  deriving DecidableEq, Repr

/-- Tearing connection `t` down. -/
def Teardown.apply (t : Nat) (w : World σ) : Teardown → Except Halt (World σ)
  | .eof => .ok (readerEof B t w)
  | .readerError e => Server.readerError B t (.ok w) e
  | .writerError e => Server.writerError B t (.ok w) e

/-- What happens to the connections: one arrives, connection `t` runs a command `a`, or connection
`t` is torn down. -/
inductive ConnEvent (α : Type) where
  | accept (l : Listener) (peer : Option String)
  | command (t : Nat) (a : α)
  | teardown (t : Nat) (k : Teardown)

variable {α : Type} (cmd : Nat → α → World σ → Except Halt (Int × World σ))

/-- One event; `cmd` runs the commands. -/
def ConnEvent.step (w : World σ) : ConnEvent α → Except Halt (World σ)
  | .accept l peer => listenCallback B l peer w
  | .command t a => (cmd t a w).map Prod.snd
  | .teardown t k => k.apply B t w

/-- A run of events, stopping at the first that halts the server. -/
def ConnEvent.run : World σ → List (ConnEvent α) → Except Halt (World σ)
  | w, [] => .ok w
  | w, e :: es => (ConnEvent.step B cmd w e).bind (ConnEvent.run · es)

/-- What every event keeps, every run keeps. -/
theorem ConnEvent.run_inv {P : World σ → Prop}
    (hstep : ∀ w e w', P w → ConnEvent.step B cmd w e = .ok w' → P w') :
    ∀ (es : List (ConnEvent α)) {w w' : World σ}, P w → ConnEvent.run B cmd w es = .ok w' → P w'
  | [], _, _, hw, h => by cases h; exact hw
  | e :: es, w, _, hw, h => by
    rw [ConnEvent.run] at h
    cases hs : ConnEvent.step B cmd w e with
    | error x => rw [hs] at h; cases h
    | ok w₁ => rw [hs] at h; exact ConnEvent.run_inv hstep es (hstep w e w₁ hw hs) h

/-! ### One field of every connection object -/

@[simp] theorem World.conn_with_db (w : World σ) (db : σ) (d : Nat) :
    ({ w with db := db } : World σ).conn d = w.conn d := rfl

section Fields

variable {β : Type} (f : Conn → β) {w w' : World σ} {t : Nat}

theorem field_setConn {c : Conn} (hc : f c = f (w.conn t)) (d : Nat) :
    f ((w.setConn t c).conn d) = f (w.conn d) := by
  by_cases hd : d = t
  · subst hd
    rcases lt_or_le d w.conns.length with hl | hl
    · rw [World.conn_setConn_self hl, hc]
    · rw [World.setConn_of_le hl]
  · rw [World.conn_setConn_ne hd]

theorem field_modifyConn {g : Conn → Conn} (hg : f (g (w.conn t)) = f (w.conn t)) (d : Nat) :
    f ((w.modifyConn t g).conn d) = f (w.conn d) :=
  field_setConn f hg d

/-- A step that leaves the list, every connection's writer, and the field `f` of every connection
object as they were. -/
structure Frame (w w' : World σ) : Prop where
  connections : w'.connections = w.connections
  length : w'.conns.length = w.conns.length
  writer : ∀ d, (w'.conn d).w = (w.conn d).w ∧ (w'.conn d).wr.fd = (w.conn d).wr.fd
  field : ∀ d, f (w'.conn d) = f (w.conn d)

namespace Frame

variable {f} {w₁ : World σ}

theorem refl (w : World σ) : Frame f w w := ⟨rfl, rfl, fun _ => ⟨rfl, rfl⟩, fun _ => rfl⟩

theorem trans (h₁ : Frame f w w₁) (h₂ : Frame f w₁ w') : Frame f w w' :=
  ⟨h₂.connections.trans h₁.connections, h₂.length.trans h₁.length,
    fun d => ⟨(h₂.writer d).1.trans (h₁.writer d).1, (h₂.writer d).2.trans (h₁.writer d).2⟩,
    fun d => (h₂.field d).trans (h₁.field d)⟩

theorem db (w : World σ) (db : σ) : Frame f w { w with db := db } :=
  ⟨rfl, rfl, fun _ => ⟨rfl, rfl⟩, fun _ => rfl⟩

theorem setConn {c : Conn} (hw : c.w = (w.conn t).w) (hfd : c.wr.fd = (w.conn t).wr.fd)
    (hc : f c = f (w.conn t)) : Frame f w (w.setConn t c) :=
  ⟨rfl, by simp, fun d => ⟨field_setConn (·.w) hw d, field_setConn (·.wr.fd) hfd d⟩, field_setConn f hc⟩

theorem modifyConn {g : Conn → Conn} (hg : ∀ c, (g c).w = c.w ∧ (g c).wr.fd = c.wr.fd ∧ f (g c) = f c) :
    Frame f w (w.modifyConn t g) :=
  setConn (hg _).1 (hg _).2.1 (hg _).2.2

theorem reply (hf : ∀ (c : Conn) wr out, f { c with wr := wr, out := out } = f c) {s : String} {n : Int}
    (h : w.reply t s = .ok (n, w')) : Frame f w w' := by
  obtain ⟨-, wr, hfd, rfl⟩ := World.reply_frame h
  exact setConn rfl hfd (hf _ _ _)

end Frame

end Fields

/-! ### Tearing a connection down -/

section Teardown

variable {w w₁ w₂ w' : World σ} {t : Nat}

theorem conn_of_le (h : w.conns.length ≤ t) : w.conn t = default := List.getD_eq_default _ _ h

/-- The steps of a teardown before `remove_connection`: connection `t`'s reader and writer change,
and nothing else, its lock and RTP request included. -/
structure Keeps (t : Nat) (w w' : World σ) : Prop where
  connections : w'.connections = w.connections
  db : w'.db = w.db
  length : w'.conns.length = w.conns.length
  other : ∀ d, d ≠ t → w'.conn d = w.conn d
  lock : (w'.conn t).lockedPlaylist = (w.conn t).lockedPlaylist
  requested : (w'.conn t).rtpRequested = (w.conn t).rtpRequested
  destination : (w'.conn t).rtpDestination = (w.conn t).rtpDestination

namespace Keeps

theorem refl (t : Nat) (w : World σ) : Keeps t w w := ⟨rfl, rfl, rfl, fun _ _ => rfl, rfl, rfl, rfl⟩

theorem trans (h₁ : Keeps t w w₁) (h₂ : Keeps t w₁ w₂) : Keeps t w w₂ :=
  ⟨h₂.connections.trans h₁.connections, h₂.db.trans h₁.db, h₂.length.trans h₁.length,
    fun d hd => (h₂.other d hd).trans (h₁.other d hd), h₂.lock.trans h₁.lock,
    h₂.requested.trans h₁.requested, h₂.destination.trans h₁.destination⟩

theorem modifyConn {g : Conn → Conn} (hg : ∀ c, (g c).lockedPlaylist = c.lockedPlaylist ∧
    (g c).rtpRequested = c.rtpRequested ∧ (g c).rtpDestination = c.rtpDestination) :
    Keeps t w (w.modifyConn t g) := by
  rcases lt_or_le t w.conns.length with ht | ht
  · refine ⟨rfl, rfl, by simp, fun d hd => World.conn_setConn_ne hd, ?_, ?_, ?_⟩ <;>
      simp [World.conn_modifyConn_self ht, hg]
  · rw [World.modifyConn_eq, World.setConn_of_le ht]; exact refl t w

theorem ite_modifyConn {g : Conn → Conn} (hg : ∀ c, (g c).lockedPlaylist = c.lockedPlaylist ∧
    (g c).rtpRequested = c.rtpRequested ∧ (g c).rtpDestination = c.rtpDestination) (p : Prop) [Decidable p] :
    Keeps t w (if p then w.modifyConn t g else w) := by
  split_ifs
  exacts [modifyConn hg, refl t w]

end Keeps

theorem w_modifyConn {g : Conn → Conn} (hg : ∀ c, (g c).w = false) : ((w.modifyConn t g).conn t).w = false := by
  rcases lt_or_le t w.conns.length with ht | ht
  · rw [World.conn_modifyConn_self ht, hg]
  · rw [World.modifyConn_eq, World.setConn_of_le ht, conn_of_le ht]; rfl

theorem removeConnection_connections : (removeConnection B t w).connections = w.connections.erase t := by
  unfold removeConnection; dsimp only; split_ifs <;> rfl

theorem removeConnection_db : (removeConnection B t w).db =
    if (w.conn t).rtpRequested then B.rtpRequestCancel w.db (w.conn t).rtpDestination else w.db := by
  unfold removeConnection; dsimp only; split_ifs <;> rfl

theorem conn_removeConnection_eq (d : Nat) : (removeConnection B t w).conn d =
    (if (w.conn t).rtpRequested then w.modifyConn t (fun c => { c with rtpRequested := false }) else w).conn d := by
  simp only [World.conn, removeConnection_conns]; split_ifs <;> rfl

theorem conn_removeConnection_ne {d : Nat} (hd : d ≠ t) : (removeConnection B t w).conn d = w.conn d := by
  rw [conn_removeConnection_eq]
  split_ifs
  exacts [World.conn_setConn_ne hd, rfl]

theorem removeConnection_requested : ((removeConnection B t w).conn t).rtpRequested = false := by
  rw [conn_removeConnection_eq]
  split_ifs with hr
  · rcases lt_or_le t w.conns.length with ht | ht
    · rw [World.conn_modifyConn_self ht]
    · rw [conn_of_le ht] at hr; cases hr
  · simpa using hr

/-- `remove_connection` after the steps before it, which drop the writer: the connection is
unlisted, its RTP request withdrawn and cleared, and every other connection object is as it was. -/
theorem removeConnection_spec (hk : Keeps t w w₁) (hw : (w₁.conn t).w = false) :
    (removeConnection B t w₁).connections = w.connections.erase t ∧
    (removeConnection B t w₁).db =
      (if (w.conn t).rtpRequested then B.rtpRequestCancel w.db (w.conn t).rtpDestination else w.db) ∧
    (∀ d, d ≠ t → (removeConnection B t w₁).conn d = w.conn d) ∧
    ((removeConnection B t w₁).conn t).lockedPlaylist = (w.conn t).lockedPlaylist ∧
    ((removeConnection B t w₁).conn t).rtpRequested = false ∧ ((removeConnection B t w₁).conn t).w = false ∧
    (removeConnection B t w₁).conns.length = w.conns.length := by
  obtain ⟨b, hb⟩ := conn_removeConnection B t (w := w₁) t
  refine ⟨by rw [removeConnection_connections, hk.connections], ?_, fun d hd => ?_, by rw [hb, ← hk.lock],
    removeConnection_requested B, by rw [hb, hw], by rw [removeConnection_length, hk.length]⟩
  · rw [removeConnection_db, hk.requested, hk.destination, hk.db]
  · rw [conn_removeConnection_ne B hd, hk.other d hd]

/-- Tearing connection `t` down, whichever way: it is unlisted, its RTP request withdrawn and
cleared, its writer forgotten, its lock kept, and every other connection object is as it was. -/
theorem Teardown.apply_spec {k : Teardown} (h : k.apply B t w = .ok w') :
    w'.connections = w.connections.erase t ∧
    w'.db = (if (w.conn t).rtpRequested then B.rtpRequestCancel w.db (w.conn t).rtpDestination else w.db) ∧
    (∀ d, d ≠ t → w'.conn d = w.conn d) ∧ (w'.conn t).lockedPlaylist = (w.conn t).lockedPlaylist ∧
    (w'.conn t).rtpRequested = false ∧ (w'.conn t).w = false ∧ w'.conns.length = w.conns.length := by
  cases k with
  | eof =>
    cases h
    unfold readerEof
    refine removeConnection_spec B ((Keeps.modifyConn fun _ => by exact ⟨rfl, rfl, rfl⟩).trans
      (Keeps.ite_modifyConn (fun _ => by exact ⟨rfl, rfl, rfl⟩) _)) ?_
    split_ifs with hw
    exacts [w_modifyConn fun _ => rfl, by simpa using hw]
  | readerError e | writerError e =>
    cases h
    exact removeConnection_spec B ((Keeps.ite_modifyConn (fun _ => by exact ⟨rfl, rfl, rfl⟩) _).trans
      (Keeps.modifyConn fun _ => by exact ⟨rfl, rfl, rfl⟩)) (w_modifyConn fun _ => rfl)

end Teardown

/-! ### The list and the writers -/

section Listed

variable {w w' : World σ}

/-- `listen_callback`: the new connection object, whose writer is not shut down, is listed under
the next tag; every other connection object is as it was, and the nonce is drawn from the
collaborators' state. -/
theorem listenCallback_spec {l : Listener} {peer : Option String} (h : listenCallback B l peer w = .ok w') :
    w'.connections = w.conns.length :: w.connections ∧ w'.conns.length = w.conns.length + 1 ∧
    w'.db = (B.gcryRandomize w.db 16).2 ∧ (∀ d, d ≠ w.conns.length → w'.conn d = w.conn d) ∧
    ∃ nonce wr out, wr.fd ∧ w'.conn w.conns.length = { newConn l peer nonce with wr := wr, out := out } := by
  unfold listenCallback at h
  rcases hg : B.gcryRandomize w.db 16 with ⟨nonce, db⟩
  rw [hg] at h
  obtain ⟨wr, hfd, rfl⟩ := World.write_frame h
  have hnew : ({ w with db := db, conns := w.conns ++ [newConn l peer nonce],
                        connections := w.conns.length :: w.connections } : World σ).conn w.conns.length =
      newConn l peer nonce := by
    rw [World.conn, List.getD_append_right _ _ _ _ le_rfl, Nat.sub_self]; rfl
  refine ⟨rfl, by simp, rfl, fun d hd => ?_, nonce, wr, _, by rw [hfd, hnew]; rfl,
    by rw [World.conn_setConn_self (by simp)]; simp only [hnew]; rfl⟩
  · rw [World.conn_setConn_ne hd]
    show (w.conns ++ [newConn l peer nonce]).getD d default = w.conns.getD d default
    rcases lt_or_gt_of_ne hd with hd | hd
    · rw [List.getD_append _ _ _ _ hd]
    · rw [List.getD_eq_default _ _ (by simp; omega), List.getD_eq_default _ _ (le_of_lt hd)]

/-- The list and the writers as connections arriving, running commands and leaving keep them: the
list is well formed, a listed connection has its writer, not shut down, and an unlisted one has
none. -/
structure Listed (w : World σ) : Prop where
  wf : w.ConnectionsWf
  live : ∀ d ∈ w.connections, (w.conn d).w ∧ (w.conn d).wr.fd
  gone : ∀ d, d ∉ w.connections → (w.conn d).w = false

theorem Listed.start (db : σ) (config : Config) (api : Option Uaudio) (now : Int) (wideopen : Bool) :
    Listed (World.start db config api now wideopen) :=
  ⟨⟨List.nodup_nil, fun _ h => absurd h (List.not_mem_nil _)⟩, fun _ h => absurd h (List.not_mem_nil _),
    fun _ _ => rfl⟩

theorem Listed.frame {β : Type} {f : Conn → β} (hl : Listed w) (h : Frame f w w') : Listed w' := by
  refine ⟨⟨?_, fun d hd => ?_⟩, fun d hd => ?_, fun d hd => ?_⟩
  · rw [h.connections]; exact hl.wf.1
  · rw [h.length]; exact hl.wf.2 d (h.connections ▸ hd)
  · rw [(h.writer d).1, (h.writer d).2]; exact hl.live d (h.connections ▸ hd)
  · rw [(h.writer d).1]; exact hl.gone d (h.connections ▸ hd)

theorem Listed.accept {l : Listener} {peer : Option String} (hl : Listed w) (h : listenCallback B l peer w = .ok w') :
    Listed w' := by
  obtain ⟨hc, hlen, -, hother, nonce, wr, out, hfd, hnew⟩ := listenCallback_spec B h
  have hfresh : w.conns.length ∉ w.connections := fun hm => lt_irrefl _ (hl.wf.2 _ hm)
  refine ⟨⟨?_, fun d hd => ?_⟩, fun d hd => ?_, fun d hd => ?_⟩
  · rw [hc]; exact List.nodup_cons.2 ⟨hfresh, hl.wf.1⟩
  · rw [hc] at hd; rw [hlen]
    rcases List.mem_cons.1 hd with rfl | hd
    exacts [Nat.lt_succ_self _, Nat.lt_succ_of_lt (hl.wf.2 d hd)]
  · rw [hc] at hd
    rcases List.mem_cons.1 hd with rfl | hd
    · rw [hnew]; exact ⟨rfl, hfd⟩
    · rw [hother d (fun h => hfresh (h ▸ hd))]; exact hl.live d hd
  · rw [hc, List.mem_cons, not_or] at hd
    rw [hother d hd.1]; exact hl.gone d hd.2

theorem Listed.teardown {t : Nat} {k : Teardown} (hl : Listed w) (h : k.apply B t w = .ok w') : Listed w' := by
  obtain ⟨hc, -, hother, -, -, hw, hlen⟩ := Teardown.apply_spec B h
  have hmem : ∀ d, d ∈ w'.connections ↔ d ≠ t ∧ d ∈ w.connections := fun d => by
    rw [hc, hl.wf.1.mem_erase_iff]
  refine ⟨⟨?_, fun d hd => ?_⟩, fun d hd => ?_, fun d hd => ?_⟩
  · rw [hc]; exact hl.wf.1.erase t
  · rw [hlen]; exact hl.wf.2 d ((hmem d).1 hd).2
  · obtain ⟨hne, hd⟩ := (hmem d).1 hd
    rw [hother d hne]; exact hl.live d hd
  · by_cases hne : d = t
    · subst hne; exact hw
    · rw [hother d hne]; exact hl.gone d fun hd' => hd ((hmem d).2 ⟨hne, hd'⟩)

end Listed

/-- A reply on a connection that has its writer, not shut down, is made. -/
theorem World.reply_live {w : World σ} {t : Nat} {s : String} (hw : (w.conn t).w) (hfd : (w.conn t).wr.fd) :
    ∃ wr : Event.Writer, wr.fd ∧ w.reply t s =
      .ok (1, w.setConn t { w.conn t with wr := wr, out := (w.conn t).out ++ [s] }) := by
  obtain ⟨wr, hwr, h⟩ := World.write_live (s := s) hw hfd
  exact ⟨wr, hwr, by rw [World.reply, h]; rfl⟩

/-! ### Playlist locks -/

section Locks

variable {w w₁ w' : World σ} {t : Nat}

/-- The commands that take, give back and use playlist locks: `playlist-lock`, `playlist-unlock`,
`playlist-set` (which starts reading a body), and a line of that body, whose final `.` hands the
body to `c_playlist_set_body`. A body line may come at any time, which covers every order the
line reader allows. -/
inductive LockCmd where
  | lock (p : String)
  | unlock
  | set (p : String)
  | line (l : List UInt8)
  deriving DecidableEq, Repr

/-- Connection `t` runs a lock command. -/
def LockCmd.apply (t : Nat) : LockCmd → World σ → Except Halt (Int × World σ)
  | .lock p => cPlaylistLock B t [p]
  | .unlock => cPlaylistUnlock t []
  | .set p => cPlaylistSet t [p]
  | .line l => bodyLine B t l

/-- What a lock command of connection `t` may do: leave the list, the writers and every other
connection's lock alone; keep `t`'s lock, release it, or, holding none, take one that no listed
connection holds. -/
structure LockMove (t : Nat) (w w' : World σ) : Prop where
  connections : w'.connections = w.connections
  length : w'.conns.length = w.conns.length
  writer : ∀ d, (w'.conn d).w = (w.conn d).w ∧ (w'.conn d).wr.fd = (w.conn d).wr.fd
  other : ∀ d, d ≠ t → (w'.conn d).lockedPlaylist = (w.conn d).lockedPlaylist
  own : (w'.conn t).lockedPlaylist = (w.conn t).lockedPlaylist ∨ (w'.conn t).lockedPlaylist = none ∨
    ∃ p, (w.conn t).lockedPlaylist = none ∧ (w'.conn t).lockedPlaylist = some p ∧
      ∀ d ∈ w.connections, (w.conn d).lockedPlaylist ≠ some p

namespace LockMove

theorem of_frame (h : Frame Conn.lockedPlaylist w w') : LockMove t w w' :=
  ⟨h.connections, h.length, h.writer, fun d _ => h.field d, .inl (h.field t)⟩

theorem frame_trans (h₁ : Frame Conn.lockedPlaylist w w₁) (h₂ : LockMove t w₁ w') : LockMove t w w' := by
  refine ⟨h₂.connections.trans h₁.connections, h₂.length.trans h₁.length,
    fun d => ⟨(h₂.writer d).1.trans (h₁.writer d).1, (h₂.writer d).2.trans (h₁.writer d).2⟩,
    fun d hd => (h₂.other d hd).trans (h₁.field d), ?_⟩
  rw [← h₁.field t]
  rcases h₂.own with h | h | ⟨p, hn, hp, hfree⟩
  exacts [.inl h, .inr (.inl h),
    .inr (.inr ⟨p, hn, hp, fun d hd => h₁.field d ▸ hfree d (h₁.connections ▸ hd)⟩)]

theorem trans_frame (h₁ : LockMove t w w₁) (h₂ : Frame Conn.lockedPlaylist w₁ w') : LockMove t w w' := by
  refine ⟨h₂.connections.trans h₁.connections, h₂.length.trans h₁.length,
    fun d => ⟨(h₂.writer d).1.trans (h₁.writer d).1, (h₂.writer d).2.trans (h₁.writer d).2⟩,
    fun d hd => (h₂.field d).trans (h₁.other d hd), ?_⟩
  rw [h₂.field t]
  exact h₁.own

/-- Changing `t`'s lock to `p`, held by no listed connection, when `t` holds none. -/
theorem acquire {p : String} {g : Conn → Conn}
    (hg : ∀ c, (g c).w = c.w ∧ (g c).wr.fd = c.wr.fd ∧ (g c).lockedPlaylist = some p)
    (hnone : (w.conn t).lockedPlaylist = none) (hfree : ∀ d ∈ w.connections, (w.conn d).lockedPlaylist ≠ some p) :
    LockMove t w (w.modifyConn t g) := by
  rcases lt_or_le t w.conns.length with ht | ht
  · refine ⟨rfl, by simp,
      fun d => ⟨field_modifyConn (·.w) (hg _).1 d, field_modifyConn (·.wr.fd) (hg _).2.1 d⟩,
      fun d hd => congrArg _ (World.conn_setConn_ne hd), .inr (.inr ⟨p, hnone, ?_, hfree⟩)⟩
    rw [World.conn_modifyConn_self ht, (hg _).2.2]
  · rw [World.modifyConn_eq, World.setConn_of_le ht]; exact of_frame (.refl w)

/-- Dropping `t`'s lock. -/
theorem release {g : Conn → Conn}
    (hg : ∀ c, (g c).w = c.w ∧ (g c).wr.fd = c.wr.fd ∧ (g c).lockedPlaylist = none) :
    LockMove t w (w.modifyConn t g) := by
  rcases lt_or_le t w.conns.length with ht | ht
  · refine ⟨rfl, by simp,
      fun d => ⟨field_modifyConn (·.w) (hg _).1 d, field_modifyConn (·.wr.fd) (hg _).2.1 d⟩,
      fun d hd => congrArg _ (World.conn_setConn_ne hd), .inr (.inl ?_)⟩
    rw [World.conn_modifyConn_self ht, (hg _).2.2]
  · rw [World.modifyConn_eq, World.setConn_of_le ht]; exact of_frame (.refl w)

end LockMove

theorem lock_wr_out (c : Conn) (wr : Event.Writer) (out : List String) :
    ({ c with wr := wr, out := out } : Conn).lockedPlaylist = c.lockedPlaylist := rfl

variable {n : Int}

theorem playlistResponse_frame {err : Nat} (h : playlistResponse t w err = .ok (n, w')) :
    Frame Conn.lockedPlaylist w w' := by
  unfold playlistResponse at h
  split_ifs at h <;> exact .reply lock_wr_out h

theorem cPlaylistSetBody_frame {body : List (List UInt8)} {p : String}
    (h : cPlaylistSetBody B t body p w = .ok (n, w')) : Frame Conn.lockedPlaylist w w' := by
  unfold cPlaylistSetBody at h
  dsimp only at h
  split_ifs at h
  · exact .reply lock_wr_out h
  split at h
  exacts [(Frame.db w _).trans (.reply lock_wr_out h), (Frame.db w _).trans (playlistResponse_frame h)]

theorem bodyLine_frame {l : List UInt8} (h : bodyLine B t l w = .ok (n, w')) : Frame Conn.lockedPlaylist w w' := by
  unfold bodyLine at h
  dsimp only at h
  have happend : ∀ l, Frame Conn.lockedPlaylist w (w.modifyConn t fun c => { c with body := c.body ++ [l] }) :=
    fun _ => .modifyConn fun _ => by exact ⟨rfl, rfl, rfl⟩
  split at h
  · split_ifs at h
    · exact (Frame.modifyConn fun _ => by exact ⟨rfl, rfl, rfl⟩).trans (cPlaylistSetBody_frame B h)
    · cases h; exact happend _
  · cases h; exact happend _

/-- Every lock command moves the locks as `LockMove` allows. -/
theorem LockCmd.move {c : LockCmd} (h : LockCmd.apply B t c w = .ok (n, w')) : LockMove t w w' := by
  cases c with
  | lock p =>
    rw [LockCmd.apply, cPlaylistLock] at h
    rcases hs : B.trackdbPlaylistSet w.db (arg [p] 0) (w.conn t).who none none with ⟨_ | err, db⟩
    · rw [hs] at h
      dsimp only at h
      split_ifs at h with hheld hany
      · exact .of_frame ((Frame.db w _).trans (.reply lock_wr_out h))
      · exact .of_frame ((Frame.db w _).trans (.reply lock_wr_out h))
      · refine LockMove.frame_trans (Frame.db w _) ((LockMove.acquire (fun _ => by exact ⟨rfl, rfl, rfl⟩)
          (Option.not_isSome_iff_eq_none.1 hheld) fun d hd hp => hany ?_).trans_frame (.reply lock_wr_out h))
        exact List.any_eq_true.2 ⟨d, hd, by simpa using hp⟩
    · rw [hs] at h
      exact .of_frame ((Frame.db w _).trans (playlistResponse_frame h))
  | unlock =>
    rw [LockCmd.apply, cPlaylistUnlock] at h
    split_ifs at h
    · exact .of_frame (.reply lock_wr_out h)
    · exact (LockMove.release fun _ => by exact ⟨rfl, rfl, rfl⟩).trans_frame (.reply lock_wr_out h)
  | set p =>
    rw [LockCmd.apply, cPlaylistSet] at h
    cases h
    exact .of_frame (.modifyConn fun _ => by exact ⟨rfl, rfl, rfl⟩)
  | line l => rw [LockCmd.apply] at h; exact .of_frame (bodyLine_frame B h)

/-- The locks as the events keep them: the list and the writers as `Listed` says, and no two listed
connections hold the same playlist's lock. -/
structure LockInv (w : World σ) : Prop where
  listed : Listed w
  exclusive : ∀ d ∈ w.connections, ∀ e ∈ w.connections, ∀ p, (w.conn d).lockedPlaylist = some p →
    (w.conn e).lockedPlaylist = some p → d = e

namespace LockInv

theorem start (db : σ) (config : Config) (api : Option Uaudio) (now : Int) (wideopen : Bool) :
    LockInv (World.start db config api now wideopen) :=
  ⟨.start db config api now wideopen, fun _ h => absurd h (List.not_mem_nil _)⟩

theorem move (hi : LockInv w) (h : LockMove t w w') : LockInv w' := by
  refine ⟨hi.listed.frame (f := fun _ => ()) ⟨h.connections, h.length, h.writer, fun _ => rfl⟩, ?_⟩
  have key : ∀ d ∈ w'.connections, ∀ e ∈ w'.connections, e ≠ t → ∀ p,
      (w'.conn d).lockedPlaylist = some p → (w'.conn e).lockedPlaylist = some p → d = e := by
    intro d hd e he het p hdp hep
    rw [h.connections] at hd he
    rw [h.other e het] at hep
    by_cases hdt : d = t
    · subst hdt
      rcases h.own with ho | ho | ⟨q, -, hq, hfree⟩
      · exact hi.exclusive d hd e he p (ho ▸ hdp) hep
      · rw [ho] at hdp; cases hdp
      · rw [hq] at hdp; cases hdp; exact absurd hep (hfree e he)
    · exact hi.exclusive d hd e he p (h.other d hdt ▸ hdp) hep
  intro d hd e he p hdp hep
  by_cases het : e = t
  · by_cases hdt : d = t
    · rw [hdt, het]
    · exact (key e he d hd hdt p hep hdp).symm
  · exact key d hd e he het p hdp hep

theorem teardown {k : Teardown} (hi : LockInv w) (h : k.apply B t w = .ok w') : LockInv w' := by
  obtain ⟨hc, -, hother, -⟩ := Teardown.apply_spec B h
  refine ⟨hi.listed.teardown B h, fun d hd e he p hdp hep => ?_⟩
  rw [hc, hi.listed.wf.1.mem_erase_iff] at hd he
  rw [hother d hd.1] at hdp
  rw [hother e he.1] at hep
  exact hi.exclusive d hd.2 e he.2 p hdp hep

theorem accept {l : Listener} {peer : Option String} (hi : LockInv w) (h : listenCallback B l peer w = .ok w') :
    LockInv w' := by
  obtain ⟨hc, -, -, hother, nonce, wr, out, -, hnew⟩ := listenCallback_spec B h
  have hfresh : w.conns.length ∉ w.connections := fun hm => lt_irrefl _ (hi.listed.wf.2 _ hm)
  have hold : ∀ d ∈ w'.connections, ∀ p, (w'.conn d).lockedPlaylist = some p →
      d ∈ w.connections ∧ (w.conn d).lockedPlaylist = some p := by
    intro d hd p hp
    rw [hc] at hd
    rcases List.mem_cons.1 hd with rfl | hd
    · rw [hnew] at hp; cases hp
    · exact ⟨hd, hother d (fun h => hfresh (h ▸ hd)) ▸ hp⟩
  refine ⟨hi.listed.accept B h, fun d hd e he p hdp hep => ?_⟩
  obtain ⟨hd, hdp⟩ := hold d hd p hdp
  obtain ⟨he, hep⟩ := hold e he p hep
  exact hi.exclusive d hd e he p hdp hep

theorem step (hi : LockInv w) {e : ConnEvent LockCmd} (h : ConnEvent.step B (LockCmd.apply B) w e = .ok w') :
    LockInv w' := by
  cases e with
  | accept l peer => exact hi.accept B h
  | command t c =>
    rw [ConnEvent.step] at h
    rcases hc : LockCmd.apply B t c w with _ | ⟨n, w₁⟩
    · rw [hc] at h; cases h
    · rw [hc] at h; cases h; exact hi.move (LockCmd.move B hc)
  | teardown t k => exact hi.teardown B h

end LockInv

/-- A listed connection that holds its lock and runs `playlist-set`'s body end: the body is refused,
or the connection holds the playlist's lock and no other listed connection does. -/
theorem cPlaylistSetBody_held (hi : LockInv w) (ht : t ∈ w.connections) (body : List (List UInt8))
    (p : String) :
    cPlaylistSetBody B t body p w = w.reply t "550 Playlist is not locked\n" ∨
      (w.conn t).lockedPlaylist = some p ∧
        ∀ d ∈ w.connections, d ≠ t → (w.conn d).lockedPlaylist ≠ some p := by
  by_cases hp : (w.conn t).lockedPlaylist = some p
  · exact .inr ⟨hp, fun d hd hne hdp => hne (hi.exclusive d hd t ht p hdp hp)⟩
  · left; unfold cPlaylistSetBody; dsimp only; rw [if_pos hp]

/-- The holder of a lock unlocks or is torn down: no listed connection holds the lock after. -/
theorem LockInv.released (hi : LockInv w) (ht : t ∈ w.connections) {p : String}
    (hp : (w.conn t).lockedPlaylist = some p) {e : ConnEvent LockCmd}
    (he : e = .command t .unlock ∨ ∃ k, e = .teardown t k) (h : ConnEvent.step B (LockCmd.apply B) w e = .ok w') :
    ∀ d ∈ w'.connections, (w'.conn d).lockedPlaylist ≠ some p := by
  rcases he with rfl | ⟨k, rfl⟩
  · rw [ConnEvent.step, LockCmd.apply, cPlaylistUnlock, hp] at h
    rcases hr : (w.modifyConn t fun c => { c with lockedPlaylist := none }).reply t "250 Released lock\n" with
      _ | ⟨n, w₁⟩
    · rw [hr] at h; cases h
    rw [hr] at h; cases h
    have hf := Frame.reply lock_wr_out hr
    intro d hd hdp
    rw [hf.field d] at hdp
    by_cases hdt : d = t
    · subst hdt; rw [World.conn_modifyConn_self (hi.listed.wf.2 d ht)] at hdp; cases hdp
    · rw [World.modifyConn_eq, World.conn_setConn_ne hdt] at hdp
      exact hdt (hi.exclusive d (hf.connections ▸ hd) t ht p hdp hp)
  · obtain ⟨hc, -, hother, -⟩ := Teardown.apply_spec B h
    intro d hd hdp
    rw [hc, hi.listed.wf.1.mem_erase_iff] at hd
    rw [hother d hd.1] at hdp
    exact hd.1 (hi.exclusive d hd.2 t ht p hdp hp)

/-- A permitted `playlist-lock` from a listed connection, for a playlist no listed connection has
locked: the connection takes the lock if it holds none, and is told it already holds one if not. -/
theorem cPlaylistLock_free (hi : LockInv w) (ht : t ∈ w.connections) {p : String} {db : σ}
    (hfree : ∀ d ∈ w.connections, (w.conn d).lockedPlaylist ≠ some p)
    (hperm : B.trackdbPlaylistSet w.db p (w.conn t).who none none = (0, db)) :
    ∃ w', cPlaylistLock B t [p] w = .ok (1, w') ∧ w'.db = db ∧
      (w'.conn t).lockedPlaylist = (w.conn t).lockedPlaylist.or (some p) ∧
      (w'.conn t).out = (w.conn t).out ++
        [if (w.conn t).lockedPlaylist.isSome then "550 Already holding a lock\n" else "250 Acquired lock\n"] := by
  obtain ⟨hw, hfd⟩ := hi.listed.live t ht
  have hlt := hi.listed.wf.2 t ht
  have hany : w.connections.any (fun d => (w.conn d).lockedPlaylist = some p) = false :=
    List.any_eq_false.2 fun d hd hdp => hfree d hd (by simpa using hdp)
  unfold cPlaylistLock
  simp only [arg, List.getD_cons_zero, hperm, World.conn_with_db]
  rcases hl : (w.conn t).lockedPlaylist with _ | q
  · set w₁ := ({ w with db := db } : World σ).modifyConn t fun c =>
      { c with lockedPlaylist := some p, lockedWhen := w.now }
    have hc : w₁.conn t = { w.conn t with lockedPlaylist := some p, lockedWhen := w.now } :=
      World.conn_modifyConn_self (w := { w with db := db }) hlt _
    obtain ⟨wr, -, hr⟩ := World.reply_live (w := w₁) (s := "250 Acquired lock\n") (by rw [hc]; exact hw)
      (by rw [hc]; exact hfd)
    simp only [hl, hany, Option.isSome_none, Bool.false_eq_true, if_false]
    have hlt₁ : t < w₁.conns.length := by simpa [w₁] using hlt
    refine ⟨_, hr, rfl, ?_, ?_⟩ <;> simp [World.conn_setConn_self hlt₁, hc, hl]
  · obtain ⟨wr, -, hr⟩ := World.reply_live (s := "550 Already holding a lock\n") (w := { w with db := db }) hw hfd
    simp only [hl, Option.isSome_some, if_true]
    refine ⟨_, hr, rfl, ?_, ?_⟩ <;> simp [World.conn_setConn_self (w := { w with db := db }) hlt, hl]

/-- Playlist locks over every run, from a fresh server, of connections arriving, running lock
commands and being torn down: no two listed connections hold the same playlist's lock; a listed
connection's body for a playlist is refused unless it holds that playlist's lock, which then no
other listed connection holds; when the holder unlocks or is torn down, no listed connection holds
the lock; and a permitted `playlist-lock` for a playlist no listed connection has locked is granted
to a listed connection holding no lock, while one holding a lock is told so and keeps it. -/
theorem playlist_locks_exclusive {db : σ} {config : Config} {api : Option Uaudio} {now : Int} {wideopen : Bool}
    {evs : List (ConnEvent LockCmd)}
    (h : ConnEvent.run B (LockCmd.apply B) (World.start db config api now wideopen) evs = .ok w) :
    (∀ d ∈ w.connections, ∀ e ∈ w.connections, ∀ p, (w.conn d).lockedPlaylist = some p →
      (w.conn e).lockedPlaylist = some p → d = e) ∧
    (∀ t ∈ w.connections, ∀ body p, cPlaylistSetBody B t body p w = w.reply t "550 Playlist is not locked\n" ∨
      (w.conn t).lockedPlaylist = some p ∧
        ∀ d ∈ w.connections, d ≠ t → (w.conn d).lockedPlaylist ≠ some p) ∧
    (∀ t ∈ w.connections, ∀ p, (w.conn t).lockedPlaylist = some p → ∀ e w',
      (e = .command t .unlock ∨ ∃ k, e = .teardown t k) → ConnEvent.step B (LockCmd.apply B) w e = .ok w' →
      ∀ d ∈ w'.connections, (w'.conn d).lockedPlaylist ≠ some p) ∧
    (∀ t ∈ w.connections, ∀ p db', (∀ d ∈ w.connections, (w.conn d).lockedPlaylist ≠ some p) →
      B.trackdbPlaylistSet w.db p (w.conn t).who none none = (0, db') →
      ∃ w', cPlaylistLock B t [p] w = .ok (1, w') ∧ w'.db = db' ∧
        (w'.conn t).lockedPlaylist = (w.conn t).lockedPlaylist.or (some p) ∧
        (w'.conn t).out = (w.conn t).out ++
          [if (w.conn t).lockedPlaylist.isSome then "550 Already holding a lock\n" else "250 Acquired lock\n"]) := by
  have hi := ConnEvent.run_inv B (LockCmd.apply B) (fun _ _ _ hw h => LockInv.step B hw h) evs
    (LockInv.start db config api now wideopen) h
  exact ⟨hi.exclusive, fun t ht => cPlaylistSetBody_held B hi ht,
    fun t ht p hp e w' he h' => hi.released B ht hp he h',
    fun t ht p db' hfree hperm => cPlaylistLock_free B hi ht hfree hperm⟩

/-- Collaborators that permit every playlist change. -/
def Backend.locking : Backend Unit := { Backend.plain with trackdbPlaylistSet := fun db _ _ _ _ => (0, db) }

/-- Two connections; the first locks `p` and goes away, and the second then locks `p`. -/
theorem playlist_locks_exclusive_handover :
    ∃ w, ConnEvent.run Backend.locking (LockCmd.apply Backend.locking) (World.start () Config.plain none 0 false)
      [.accept ⟨"socket", .unix, false⟩ none, .accept ⟨"socket", .unix, false⟩ none, .command 0 (.lock "p"),
        .teardown 0 .eof, .command 1 (.lock "p")] = .ok w ∧
    ((∀ d ∈ w.connections, ∀ e ∈ w.connections, ∀ p, (w.conn d).lockedPlaylist = some p →
      (w.conn e).lockedPlaylist = some p → d = e) ∧
    (∀ t ∈ w.connections, ∀ body p, cPlaylistSetBody Backend.locking t body p w =
      w.reply t "550 Playlist is not locked\n" ∨
      (w.conn t).lockedPlaylist = some p ∧
        ∀ d ∈ w.connections, d ≠ t → (w.conn d).lockedPlaylist ≠ some p) ∧
    (∀ t ∈ w.connections, ∀ p, (w.conn t).lockedPlaylist = some p → ∀ e w',
      (e = .command t .unlock ∨ ∃ k, e = .teardown t k) →
      ConnEvent.step Backend.locking (LockCmd.apply Backend.locking) w e = .ok w' →
      ∀ d ∈ w'.connections, (w'.conn d).lockedPlaylist ≠ some p) ∧
    (∀ t ∈ w.connections, ∀ p db', (∀ d ∈ w.connections, (w.conn d).lockedPlaylist ≠ some p) →
      Backend.locking.trackdbPlaylistSet w.db p (w.conn t).who none none = (0, db') →
      ∃ w', cPlaylistLock Backend.locking t [p] w = .ok (1, w') ∧ w'.db = db' ∧
        (w'.conn t).lockedPlaylist = (w.conn t).lockedPlaylist.or (some p) ∧
        (w'.conn t).out = (w.conn t).out ++
          [if (w.conn t).lockedPlaylist.isSome then "550 Already holding a lock\n" else "250 Acquired lock\n"])) ∧
    (w.conn 1).lockedPlaylist = some "p" :=
  (fun h => ⟨_, h, playlist_locks_exclusive Backend.locking h, by rfl⟩) rfl

/-- Two connections; the first locks `p` and the second `q`, then the first goes away. No listed
connection holds `p`, yet the second's `playlist-lock p` is refused with `550 Already holding a
lock`, and it keeps `q`. -/
theorem playlist_lock_refused_while_holding :
    ∃ w, ConnEvent.run Backend.locking (LockCmd.apply Backend.locking) (World.start () Config.plain none 0 false)
      [.accept ⟨"socket", .unix, false⟩ none, .accept ⟨"socket", .unix, false⟩ none, .command 0 (.lock "p"),
        .command 1 (.lock "q"), .teardown 0 .eof, .command 1 (.lock "p")] = .ok w ∧
      (∀ d ∈ w.connections, (w.conn d).lockedPlaylist ≠ some "p") ∧ (w.conn 1).lockedPlaylist = some "q" ∧
      (w.conn 1).out.getLast? = some "550 Already holding a lock\n" :=
  ⟨_, rfl, by decide, rfl, rfl⟩

end Locks

/-! ### RTP requests -/

section Rtp

/-- The commands that register and withdraw RTP destinations. -/
inductive RtpCmd where
  | request (host port : String)
  | cancel
  deriving DecidableEq, Repr

/-- Connection `t` runs an RTP command. -/
def RtpCmd.apply (t : Nat) : RtpCmd → World σ → Except Halt (Int × World σ)
  | .request host port => cRtpRequest B t [host, port]
  | .cancel => cRtpCancel B t []

/-- A connection object's RTP request: whether it is set, and its destination. -/
def Conn.rtp (c : Conn) : Bool × List UInt8 := (c.rtpRequested, c.rtpDestination)

/-- Whether connection object `c` has destination `b` registered. -/
def Conn.registers (c : Conn) (b : List UInt8) : Bool := c.rtpRequested && c.rtpDestination == b

/-- The number of listed connections that have destination `b` registered. -/
def World.registered (w : World σ) (b : List UInt8) : Nat := w.connections.countP fun d => (w.conn d).registers b

theorem Conn.registers_congr {c c' : Conn} (h : c'.rtp = c.rtp) (b : List UInt8) : c'.registers b = c.registers b := by
  simp only [Conn.rtp, Prod.mk.injEq] at h
  rw [Conn.registers, Conn.registers, h.1, h.2]

theorem rtp_wr_out (c : Conn) (wr : Event.Writer) (out : List String) :
    ({ c with wr := wr, out := out } : Conn).rtp = c.rtp := rfl

theorem countP_erase_add {l : List Nat} {t : Nat} (ht : t ∈ l) (p : Nat → Bool) :
    l.countP p = (l.erase t).countP p + if p t then 1 else 0 := by
  rw [(List.perm_cons_erase ht).countP_eq, List.countP_cons]

theorem countP_erase_congr {l : List Nat} (hl : l.Nodup) {t : Nat} {p q : Nat → Bool}
    (h : ∀ d, d ≠ t → p d = q d) :
    (l.erase t).countP p = (l.erase t).countP q :=
  List.countP_congr fun d hd => by rw [h d (hl.mem_erase_iff.1 hd).1]

variable {w w₁ w' : World σ} {t : Nat} {n : Int}

theorem World.w_of_reply {s : String} {r : Int × World σ} (h : w.reply t s = .ok r) : (w.conn t).w := by
  by_contra hw
  rw [World.reply, World.write_null (by simpa using hw)] at h
  cases h

theorem World.db_reply {s : String} (h : w.reply t s = .ok (n, w')) : w'.db = w.db := by
  obtain ⟨-, wr, -, rfl⟩ := World.reply_frame h; rfl

theorem World.lt_of_w (hw : (w.conn t).w) : t < w.conns.length := by
  by_contra hl
  rw [conn_of_le (not_lt.1 hl)] at hw
  cases hw

variable (count : σ → List UInt8 → Nat)

/-- What an RTP command of connection `t` may do: leave the list, the writers and every other
connection's request alone, and change the registered destinations as it changes `t`'s. -/
structure RtpMove (t : Nat) (w w' : World σ) : Prop where
  connections : w'.connections = w.connections
  length : w'.conns.length = w.conns.length
  writer : ∀ d, (w'.conn d).w = (w.conn d).w ∧ (w'.conn d).wr.fd = (w.conn d).wr.fd
  other : ∀ d, d ≠ t → (w'.conn d).rtp = (w.conn d).rtp
  registry : ∀ b, count w'.db b + (if (w.conn t).registers b then 1 else 0) =
    count w.db b + if (w'.conn t).registers b then 1 else 0

namespace RtpMove

variable {count}

theorem of_frame (h : Frame Conn.rtp w w') (hdb : w'.db = w.db) : RtpMove count t w w' :=
  ⟨h.connections, h.length, h.writer, fun d _ => h.field d, fun b => by
    rw [hdb, Conn.registers_congr (h.field t)]⟩

theorem trans_frame (h₁ : RtpMove count t w w₁) (h₂ : Frame Conn.rtp w₁ w') (hdb : w'.db = w₁.db) :
    RtpMove count t w w' :=
  ⟨h₂.connections.trans h₁.connections, h₂.length.trans h₁.length,
    fun d => ⟨(h₂.writer d).1.trans (h₁.writer d).1, (h₂.writer d).2.trans (h₁.writer d).2⟩,
    fun d hd => (h₂.field d).trans (h₁.other d hd), fun b => by
      rw [hdb, Conn.registers_congr (h₂.field t)]; exact h₁.registry b⟩

/-- A new state of the collaborators and a change to `t`'s request that agree. -/
theorem update {db : σ} {g : Conn → Conn} (hg : ∀ c, (g c).w = c.w ∧ (g c).wr.fd = c.wr.fd)
    (ht : t < w.conns.length) (hreg : ∀ b, count db b + (if (w.conn t).registers b then 1 else 0) =
      count w.db b + if (g (w.conn t)).registers b then 1 else 0) :
    RtpMove count t w ({ w with db := db }.modifyConn t g) :=
  ⟨rfl, by simp, fun d => ⟨field_modifyConn (·.w) (hg _).1 d, field_modifyConn (·.wr.fd) (hg _).2 d⟩,
    fun d hd => congrArg _ (World.conn_setConn_ne hd), fun b => by
      rw [World.conn_modifyConn_self (w := { w with db := db }) ht]; exact hreg b⟩

end RtpMove

variable {count}

/-- `c_rtp_request`'s bookkeeping: the previous destination, if any, is withdrawn, and the new one
registered. -/
theorem request_registry (hreq : ∀ db a b, count (B.rtpRequest db a) b = count db b + if a = b then 1 else 0)
    (hcancel : ∀ db a b, 0 < count db a → count (B.rtpRequestCancel db a) b + (if a = b then 1 else 0) = count db b)
    {c : Conn} (hpos : c.rtpRequested → 0 < count w.db c.rtpDestination)
    (addr b : List UInt8) :
    count (B.rtpRequest (if c.rtpRequested then B.rtpRequestCancel w.db c.rtpDestination else w.db) addr) b +
      (if c.registers b then 1 else 0) =
    count w.db b + if ({ c with rtpRequested := true, rtpDestination := addr } : Conn).registers b then 1 else 0 := by
  rw [hreq]
  by_cases hr : c.rtpRequested
  · have hc := hcancel w.db c.rtpDestination b (hpos hr)
    simp only [Conn.registers, hr, if_true, Bool.true_and, beq_iff_eq] at hc ⊢
    split_ifs at hc ⊢ <;> omega
  · simp [Conn.registers, hr]

theorem cRtpRequest_move (hreq : ∀ db a b, count (B.rtpRequest db a) b = count db b + if a = b then 1 else 0)
    (hcancel : ∀ db a b, 0 < count db a → count (B.rtpRequestCancel db a) b + (if a = b then 1 else 0) = count db b)
    {vec : List String} (hpos : (w.conn t).rtpRequested → 0 < count w.db (w.conn t).rtpDestination)
    (h : cRtpRequest B t vec w = .ok (n, w')) : RtpMove count t w w' ∧ (w.conn t).w := by
  unfold cRtpRequest at h
  split at h
  · exact ⟨.of_frame (.reply rtp_wr_out h) (World.db_reply h), World.w_of_reply h⟩
  · dsimp only at h
    have hw : (w.conn t).w := by
      have h₁ := World.w_of_reply h
      rwa [field_modifyConn (·.w) (by rfl)] at h₁
    refine ⟨(RtpMove.update (fun _ => by exact ⟨rfl, rfl⟩) (World.lt_of_w hw) ?_).trans_frame
      (.reply rtp_wr_out h) (World.db_reply h), hw⟩
    exact request_registry B hreq hcancel hpos _

/-- A request whose address resolves flags the connection with the new destination; the registry
loses the previous destination, if one was set, and gains the new one. -/
theorem cRtpRequest_replaces (hreq : ∀ db a b, count (B.rtpRequest db a) b = count db b + if a = b then 1 else 0)
    (hcancel : ∀ db a b, 0 < count db a → count (B.rtpRequestCancel db a) b + (if a = b then 1 else 0) = count db b)
    {vec : List String} {addr : List UInt8} (haddr : B.getaddrinfo (arg vec 0) (arg vec 1) = some addr)
    (hpos : (w.conn t).rtpRequested → 0 < count w.db (w.conn t).rtpDestination)
    (h : cRtpRequest B t vec w = .ok (n, w')) :
    (w'.conn t).rtpRequested ∧ (w'.conn t).rtpDestination = addr ∧
      ∀ b, count w'.db b + (if (w.conn t).registers b then 1 else 0) = count w.db b + if addr = b then 1 else 0 := by
  obtain ⟨hm, hw⟩ := cRtpRequest_move B hreq hcancel hpos h
  rw [cRtpRequest, haddr] at h
  dsimp only at h
  have hrtp : (w'.conn t).rtp = (true, addr) := by
    obtain ⟨-, wr, -, rfl⟩ := World.reply_frame h
    rw [World.conn_setConn_self (by simpa [World.modifyConn] using World.lt_of_w hw), rtp_wr_out]
    simp (disch := exact (World.lt_of_w hw : t < w.conns.length)) only [World.conn_modifyConn_self]
    rfl
  simp only [Conn.rtp, Prod.mk.injEq] at hrtp
  refine ⟨hrtp.1, hrtp.2, fun b => ?_⟩
  rw [hm.registry b, Conn.registers, hrtp.1, hrtp.2]
  simp

theorem cRtpCancel_move
    (hcancel : ∀ db a b, 0 < count db a → count (B.rtpRequestCancel db a) b + (if a = b then 1 else 0) = count db b)
    {vec : List String} (hpos : (w.conn t).rtpRequested → 0 < count w.db (w.conn t).rtpDestination)
    (h : cRtpCancel B t vec w = .ok (n, w')) : RtpMove count t w w' ∧ (w.conn t).w := by
  unfold cRtpCancel at h
  dsimp only at h
  split_ifs at h with hr
  · exact ⟨.of_frame (.reply rtp_wr_out h) (World.db_reply h), World.w_of_reply h⟩
  · have hw : (w.conn t).w := by
      have h₁ := World.w_of_reply h
      rwa [field_modifyConn (·.w) (by rfl)] at h₁
    refine ⟨(RtpMove.update (fun _ => by exact ⟨rfl, rfl⟩) (World.lt_of_w hw) fun b => ?_).trans_frame
      (.reply rtp_wr_out h) (World.db_reply h), hw⟩
    simp only [Bool.not_eq_true', Bool.not_eq_false] at hr
    have hc := hcancel w.db (w.conn t).rtpDestination b (hpos hr)
    simpa [Conn.registers, hr] using hc

/-- The registered destinations as the events keep them: the list and the writers as `Listed` says,
no unlisted connection has a request set, and each destination is registered as many times as
listed connections have it. -/
structure RtpInv (count : σ → List UInt8 → Nat) (w : World σ) : Prop where
  listed : Listed w
  cleared : ∀ d, d ∉ w.connections → (w.conn d).rtpRequested = false
  registry : ∀ b, count w.db b = w.registered b

namespace RtpInv

theorem start {db : σ} (h0 : ∀ b, count db b = 0) (config : Config) (api : Option Uaudio) (now : Int)
    (wideopen : Bool) : RtpInv count (World.start db config api now wideopen) :=
  ⟨.start db config api now wideopen, fun _ _ => rfl, fun b => h0 b⟩

/-- A connection's request is registered: the destination it would withdraw is there. -/
theorem pos (hi : RtpInv count w) (hr : (w.conn t).rtpRequested) : 0 < count w.db (w.conn t).rtpDestination := by
  have ht : t ∈ w.connections := by
    by_contra ht; rw [hi.cleared t ht] at hr; cases hr
  rw [hi.registry, World.registered, countP_erase_add ht]
  simp [Conn.registers, hr]

theorem move (hi : RtpInv count w) (hm : RtpMove count t w w') (hw : (w.conn t).w) : RtpInv count w' := by
  have ht : t ∈ w.connections := by
    by_contra ht; rw [hi.listed.gone t ht] at hw; cases hw
  refine ⟨hi.listed.frame (f := fun _ => ()) ⟨hm.connections, hm.length, hm.writer, fun _ => rfl⟩,
    fun d hd => ?_, fun b => ?_⟩
  · rw [hm.connections] at hd
    rw [show (w'.conn d).rtpRequested = (w.conn d).rtpRequested from
      congrArg Prod.fst (hm.other d fun h => hd (h ▸ ht))]
    exact hi.cleared d hd
  · have h1 := hm.registry b
    have h2 := hi.registry b
    rw [World.registered, countP_erase_add ht] at h2
    rw [World.registered, hm.connections, countP_erase_add ht,
      countP_erase_congr hi.listed.wf.1 (q := fun d => (w.conn d).registers b)
        fun d hd => Conn.registers_congr (hm.other d hd) b]
    omega

theorem teardown
    (hcancel : ∀ db a b, 0 < count db a → count (B.rtpRequestCancel db a) b + (if a = b then 1 else 0) = count db b)
    {k : Teardown} (hi : RtpInv count w) (h : k.apply B t w = .ok w') : RtpInv count w' := by
  obtain ⟨hc, hdb, hother, -, hcleared, -, -⟩ := Teardown.apply_spec B h
  refine ⟨hi.listed.teardown B h, fun d hd => ?_, fun b => ?_⟩
  · by_cases hdt : d = t
    · subst hdt; exact hcleared
    · rw [hother d hdt]
      exact hi.cleared d fun h' => hd (by rw [hc, hi.listed.wf.1.mem_erase_iff]; exact ⟨hdt, h'⟩)
  · rw [World.registered, hc, countP_erase_congr hi.listed.wf.1 (q := fun d => (w.conn d).registers b)
      fun d hd => by rw [hother d hd], hdb]
    by_cases ht : t ∈ w.connections
    · have h2 := hi.registry b
      rw [World.registered, countP_erase_add ht] at h2
      split_ifs with hr
      · have hc' := hcancel w.db (w.conn t).rtpDestination b (hi.pos hr)
        have hx : (if (w.conn t).registers b then 1 else 0) = if (w.conn t).rtpDestination = b then 1 else 0 := by
          simp [Conn.registers, hr]
        rw [hx] at h2
        split_ifs at h2 hc' <;> omega
      · simpa [Conn.registers, hr] using h2
    · rw [List.erase_of_not_mem ht, if_neg (by simp [hi.cleared t ht]), hi.registry b, World.registered]

theorem accept (hrand : ∀ db n b, count (B.gcryRandomize db n).2 b = count db b) {l : Listener}
    {peer : Option String} (hi : RtpInv count w) (h : listenCallback B l peer w = .ok w') : RtpInv count w' := by
  obtain ⟨hc, -, hdb, hother, nonce, wr, out, -, hnew⟩ := listenCallback_spec B h
  have hfresh : w.conns.length ∉ w.connections := fun hm => lt_irrefl _ (hi.listed.wf.2 _ hm)
  refine ⟨hi.listed.accept B h, fun d hd => ?_, fun b => ?_⟩
  · rw [hc, List.mem_cons, not_or] at hd
    rw [hother d hd.1]; exact hi.cleared d hd.2
  · have hsame : w.connections.countP (fun d => (w'.conn d).registers b) =
        w.connections.countP (fun d => (w.conn d).registers b) :=
      List.countP_congr fun d hd => by rw [hother d fun h => hfresh (h ▸ hd)]
    rw [hdb, hrand, hi.registry, World.registered, World.registered, hc, List.countP_cons, hnew, hsame]
    simp [Conn.registers, newConn]

theorem step (hreq : ∀ db a b, count (B.rtpRequest db a) b = count db b + if a = b then 1 else 0)
    (hcancel : ∀ db a b, 0 < count db a → count (B.rtpRequestCancel db a) b + (if a = b then 1 else 0) = count db b)
    (hrand : ∀ db n b, count (B.gcryRandomize db n).2 b = count db b)
    (hi : RtpInv count w) {e : ConnEvent RtpCmd} (h : ConnEvent.step B (RtpCmd.apply B) w e = .ok w') :
    RtpInv count w' := by
  cases e with
  | accept l peer => exact hi.accept B hrand h
  | command t c =>
    rw [ConnEvent.step] at h
    rcases hc : RtpCmd.apply B t c w with _ | ⟨n, w₁⟩
    · rw [hc] at h; cases h
    rw [hc] at h; cases h
    cases c with
    | request host port =>
      rw [RtpCmd.apply] at hc
      obtain ⟨hm, hw⟩ := cRtpRequest_move B hreq hcancel hi.pos hc
      exact hi.move hm hw
    | cancel =>
      rw [RtpCmd.apply] at hc
      obtain ⟨hm, hw⟩ := cRtpCancel_move B hcancel hi.pos hc
      exact hi.move hm hw
  | teardown t k => exact hi.teardown B hcancel h

end RtpInv

/-- The registry's count as the multiset of the listed requesters' destinations. -/
theorem registered_eq_count (w : World σ) (b : List UInt8) : w.registered b =
    ((w.connections.filter fun d => (w.conn d).rtpRequested).map fun d => (w.conn d).rtpDestination).count b := by
  rw [World.registered, List.count_eq_countP, List.countP_map, List.countP_filter]
  exact List.countP_congr fun d _ => by simp [Conn.registers, Bool.and_comm]

/-- RTP destinations over every run, from a fresh server with nothing registered, of connections
arriving, requesting and cancelling streams, and being torn down in any of the ways there are, as
often as they are: the destinations registered and not withdrawn are, as a multiset, those of the
listed connections with a request set; no unlisted connection has one; and a connection's request,
the destination a new request, a cancel or a teardown withdraws, is registered. A request whose
address resolves replaces the connection's destination: the connection is flagged with the new
one, and the registry loses the previous one, if it was set, and gains the new one. -/
theorem rtp_registry_matches (count : σ → List UInt8 → Nat)
    (hreq : ∀ db a b, count (B.rtpRequest db a) b = count db b + if a = b then 1 else 0)
    (hcancel : ∀ db a b, 0 < count db a → count (B.rtpRequestCancel db a) b + (if a = b then 1 else 0) = count db b)
    (hrand : ∀ db n b, count (B.gcryRandomize db n).2 b = count db b)
    {db : σ} (h0 : ∀ b, count db b = 0) {config : Config} {api : Option Uaudio} {now : Int} {wideopen : Bool}
    {evs : List (ConnEvent RtpCmd)}
    (h : ConnEvent.run B (RtpCmd.apply B) (World.start db config api now wideopen) evs = .ok w) :
    (∀ b, count w.db b =
      ((w.connections.filter fun d => (w.conn d).rtpRequested).map fun d => (w.conn d).rtpDestination).count b) ∧
    (∀ d, d ∉ w.connections → (w.conn d).rtpRequested = false) ∧
    (∀ d, (w.conn d).rtpRequested → 0 < count w.db (w.conn d).rtpDestination) ∧
    ∀ t host port addr w', B.getaddrinfo host port = some addr →
      ConnEvent.step B (RtpCmd.apply B) w (.command t (.request host port)) = .ok w' →
      (w'.conn t).rtpRequested ∧ (w'.conn t).rtpDestination = addr ∧
      ∀ b, count w'.db b + (if (w.conn t).registers b then 1 else 0) = count w.db b + if addr = b then 1 else 0 := by
  have hi := ConnEvent.run_inv B (RtpCmd.apply B) (fun _ _ _ hw h => RtpInv.step B hreq hcancel hrand hw h) evs
    (RtpInv.start h0 config api now wideopen) h
  refine ⟨fun b => (hi.registry b).trans (registered_eq_count w b), hi.cleared, fun _ => hi.pos,
    fun t host port addr w' haddr hs => ?_⟩
  rw [ConnEvent.step, RtpCmd.apply] at hs
  rcases hc : cRtpRequest B t [host, port] w with _ | ⟨n, w₁⟩ <;> rw [hc] at hs <;> cases hs
  exact cRtpRequest_replaces B hreq hcancel
    (show B.getaddrinfo (arg [host, port] 0) (arg [host, port] 1) = some addr from haddr) hi.pos hc

/-- Collaborators whose RTP registry is the list of destinations registered, most recent first, an
address being its host's bytes. -/
def Backend.rtp : Backend (List (List UInt8)) :=
  { Backend.over (List (List UInt8)) with
    getaddrinfo := fun host _ => some (utf8 host)
    rtpRequest := fun db a => a :: db
    rtpRequestCancel := fun db a => db.erase a }

/-- Two connections; the first requests a stream to `h`, then one to `k`, the second one to `h`,
and the first is torn down twice: `h` alone stays registered. -/
theorem rtp_registry_matches_twice :
    (∀ db a b, (Backend.rtp.rtpRequest db a).count b = db.count b + if a = b then 1 else 0) ∧
    (∀ db a b, 0 < db.count a →
      (Backend.rtp.rtpRequestCancel db a).count b + (if a = b then 1 else 0) = db.count b) ∧
    (∀ db n b, (Backend.rtp.gcryRandomize db n).2.count b = db.count b) ∧
    (∀ b, ([] : List (List UInt8)).count b = 0) ∧
    ∃ w, ConnEvent.run Backend.rtp (RtpCmd.apply Backend.rtp) (World.start [] Config.plain none 0 false)
      [.accept ⟨"socket", .unix, false⟩ none, .accept ⟨"socket", .unix, false⟩ none,
        .command 0 (.request "h" "1"), .command 0 (.request "k" "1"), .command 1 (.request "h" "1"),
        .teardown 0 .eof, .teardown 0 (.writerError 0)] = .ok w ∧
    ((∀ b, w.db.count b =
      ((w.connections.filter fun d => (w.conn d).rtpRequested).map fun d => (w.conn d).rtpDestination).count b) ∧
    (∀ d, d ∉ w.connections → (w.conn d).rtpRequested = false) ∧
    (∀ d, (w.conn d).rtpRequested → 0 < w.db.count (w.conn d).rtpDestination) ∧
    ∀ t host port addr w', Backend.rtp.getaddrinfo host port = some addr →
      ConnEvent.step Backend.rtp (RtpCmd.apply Backend.rtp) w (.command t (.request host port)) = .ok w' →
      (w'.conn t).rtpRequested ∧ (w'.conn t).rtpDestination = addr ∧
      ∀ b, w'.db.count b + (if (w.conn t).registers b then 1 else 0) = w.db.count b + if addr = b then 1 else 0) ∧
    w.db = [utf8 "h"] :=
  have hreq : ∀ db a b, (Backend.rtp.rtpRequest db a).count b = db.count b + if a = b then 1 else 0 :=
    fun db a b => by simp [Backend.rtp, List.count_cons]
  have hcancel : ∀ db a b, 0 < db.count a →
      (Backend.rtp.rtpRequestCancel db a).count b + (if a = b then 1 else 0) = db.count b := fun db a b h => by
    simp only [Backend.rtp, List.count_erase, beq_iff_eq]
    split_ifs with hab
    · subst hab; omega
    · rfl
  have hrand : ∀ db n b, (Backend.rtp.gcryRandomize db n).2.count b = db.count b := fun _ _ _ => rfl
  ⟨hreq, hcancel, hrand, fun _ => rfl, (fun h => ⟨_, h, rtp_registry_matches Backend.rtp (fun db b => db.count b)
    hreq hcancel hrand (fun _ => by rfl) h, by rfl⟩) rfl⟩

end Rtp

end Disorder.Server

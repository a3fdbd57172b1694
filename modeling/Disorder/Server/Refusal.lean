import Disorder.Server.Session

/-! Rights refusals. `command` refuses a command whose table row names rights the connection has
none of, and the handlers that check rights themselves (remove, move, moveafter, scratch, volume,
edituser, userinfo, schedule-del, and user management from a remote connection) refuse after
lookups only. Each refusal is exactly the one `510` reply: by `World.reply_frame` that changes the
connection's writer and transcript and nothing else, so the collaborators' state (queue, users,
preferences, schedule, playlists, event log), the other connections, and this connection's
rights, locks and RTP request are as before. -/

namespace Disorder.Server

variable {σ : Type} (B : Backend σ) (t : Nat)

section Handlers

variable {vec : List String} {w : World σ}

theorem cRemove_refused {q : QueueEntry} (hq : B.queueFind w.db (arg vec 0) = some q)
    (hr : B.rightRemovable (w.conn t).rights (w.conn t).who q = false) :
    cRemove B t vec w = w.reply t "510 Not authorized to remove that track\n" := by
  simp [cRemove, hq, hr]

theorem cMove_refused {q : QueueEntry} (hq : B.queueFind w.db (arg vec 0) = some q)
    (hr : B.rightMovable (w.conn t).rights (w.conn t).who q = false) :
    cMove B t vec w = w.reply t "510 Not authorized to move that track\n" := by
  simp [cMove, hq, hr]

theorem cMoveafter_refused {qs : List QueueEntry}
    (htarget : arg vec 0 = "" ∨ (B.queueFind w.db (arg vec 0)).isSome)
    (hqs : (vec.drop 1).mapM (B.queueFind w.db) = some qs)
    (hr : qs.all (B.rightMovable (w.conn t).rights (w.conn t).who) = false) :
    cMoveafter B t vec w = w.reply t "510 Not authorized to move those tracks\n" := by
  unfold cMoveafter
  dsimp only
  split
  · rename_i h
    split_ifs at h with h0
    · obtain h' | h' := htarget
      · exact absurd h' h0
      · rw [Option.map_eq_none'] at h
        simp [h] at h'
  · rw [hqs]
    simp only [hr, Bool.not_false, if_true]

theorem cScratch_refused {p : QueueEntry} (hp : B.playing w.db = some p)
    (hr : B.rightScratchable (w.conn t).rights (w.conn t).who p = false) :
    cScratch B t vec w = w.reply t "510 Not authorized to scratch that track\n" := by
  simp [cScratch, hp, hr]

/-- Setting the volume, with one or two arguments, without `volume`. -/
theorem cVolume_refused (hset : vec ≠ []) (hlen : vec.length ≤ 2) (hr : (w.conn t).rights &&& rightVolume = 0) :
    cVolume B t vec w = w.reply t "510 Prohibited\n" := by
  unfold cVolume
  match vec, hset, hlen with
  | [_], _, _ => simp [volumeArgs, hr]
  | [_, _], _, _ => simp [volumeArgs, hr]

/-- Remote user management when it is off: adduser, deluser, edituser, and userinfo of anything
but rights. -/
theorem userManagement_refused (h : remoteRefused t w) :
    cAdduser B t vec w = w.reply t "510 Remote user management is disabled\n" ∧
    cDeluser B t vec w = w.reply t "510 Remote user management is disabled\n" ∧
    cEdituser B t vec w = w.reply t "510 Remote user management is disabled\n" ∧
    (arg vec 1 ≠ "rights" → cUserinfo B t vec w = w.reply t "510 Remote user management is disabled\n") := by
  refine ⟨by simp [cAdduser, h], by simp [cDeluser, h], by simp [cEdituser, h], fun hp => ?_⟩
  simp [cUserinfo, h, hp]

/-- `edituser` by a logged-in user without `admin`, of another user or of a property other than
email and password. -/
theorem cEdituser_refused {who : String} (hremote : remoteRefused t w = false)
    (hadmin : (w.conn t).rights &&& rightAdmin = 0) (hwho : (w.conn t).who = some who)
    (hnot : ¬(who = arg vec 0 ∧ (arg vec 1 = "email" ∨ arg vec 1 = "password"))) :
    cEdituser B t vec w = w.reply t "510 Restricted to administrators\n" := by
  simp only [cEdituser, hremote, hadmin, selfProperty, hwho]
  simp only [hnot, decide_False]
  simp

/-- `userinfo` by a logged-in user without `admin`, of another user or of a property other than
email and rights. -/
theorem cUserinfo_refused {who : String} (hremote : ¬(remoteRefused t w ∧ arg vec 1 ≠ "rights"))
    (hadmin : (w.conn t).rights &&& rightAdmin = 0) (hwho : (w.conn t).who = some who)
    (hnot : ¬(who = arg vec 0 ∧ (arg vec 1 = "email" ∨ arg vec 1 = "rights"))) :
    cUserinfo B t vec w = w.reply t "510 Restricted to administrators\n" := by
  simp only [cUserinfo, hremote, if_false, hadmin, selfProperty, hwho]
  simp only [hnot, decide_False]
  simp

/-- `schedule-del` without `admin` of an event that is not the caller's. -/
theorem cScheduleDel_refused {ad : List (String × String)}
    (hget : B.scheduleGet w.db (arg vec 0) = some ad) (hadmin : (w.conn t).rights &&& rightAdmin = 0)
    (hwho : kvpGet ad "who" = none ∨ (w.conn t).who = none ∨ kvpGet ad "who" ≠ (w.conn t).who) :
    cScheduleDel B t vec w = w.reply t "510 Not authorized\n" := by
  simp only [cScheduleDel, hget]
  rw [if_pos ⟨hadmin, hwho⟩]

end Handlers

/-- A reply leaves the collaborators' state, the connection list and the pending completions as
they were, and changes no connection but in its writer and transcript. -/
theorem reply_keeps_state {w w' : World σ} {msg : String} {n : Int} (h : w.reply t msg = .ok (n, w')) :
    w'.db = w.db ∧ w'.connections = w.connections ∧ w'.pending = w.pending ∧
      ∀ d, ∃ wr out, w'.conn d = { w.conn d with wr := wr, out := out } := by
  obtain ⟨-, wr, -, rfl⟩ := World.reply_frame h
  exact ⟨rfl, rfl, rfl, World.conn_setConn_wr_out wr _⟩

/-- Every rights refusal, by the dispatcher or inside a handler, is the one `510` reply, which
changes nothing but the connection's writer and transcript. -/
theorem rights_refusal_only_replies (w : World σ) :
    (∀ msg n w', w.reply t msg = .ok (n, w') → w'.db = w.db ∧ w'.connections = w.connections ∧
      w'.pending = w.pending ∧ ∀ d, ∃ wr out, w'.conn d = { w.conn d with wr := wr, out := out }) ∧
    (∀ line l name vec (cmd : ServerCommand σ), B.utf8ComposeCanon line = some l →
      B.split l = .ok (name :: vec) → tableFind B name = some cmd → cmd.rights ≠ 0 →
      (w.conn t).rights &&& cmd.rights = 0 → command B t line w = w.reply t "510 Prohibited\n") ∧
    (∀ vec q, B.queueFind w.db (arg vec 0) = some q →
      B.rightRemovable (w.conn t).rights (w.conn t).who q = false →
      cRemove B t vec w = w.reply t "510 Not authorized to remove that track\n") ∧
    (∀ vec q, B.queueFind w.db (arg vec 0) = some q →
      B.rightMovable (w.conn t).rights (w.conn t).who q = false →
      cMove B t vec w = w.reply t "510 Not authorized to move that track\n") ∧
    (∀ vec qs, (arg vec 0 = "" ∨ (B.queueFind w.db (arg vec 0)).isSome) →
      (vec.drop 1).mapM (B.queueFind w.db) = some qs →
      qs.all (B.rightMovable (w.conn t).rights (w.conn t).who) = false →
      cMoveafter B t vec w = w.reply t "510 Not authorized to move those tracks\n") ∧
    (∀ vec p, B.playing w.db = some p → B.rightScratchable (w.conn t).rights (w.conn t).who p = false →
      cScratch B t vec w = w.reply t "510 Not authorized to scratch that track\n") ∧
    (∀ vec, vec ≠ [] → vec.length ≤ 2 → (w.conn t).rights &&& rightVolume = 0 →
      cVolume B t vec w = w.reply t "510 Prohibited\n") ∧
    (∀ vec who, remoteRefused t w = false → (w.conn t).rights &&& rightAdmin = 0 →
      (w.conn t).who = some who → ¬(who = arg vec 0 ∧ (arg vec 1 = "email" ∨ arg vec 1 = "password")) →
      cEdituser B t vec w = w.reply t "510 Restricted to administrators\n") ∧
    (∀ vec who, ¬(remoteRefused t w ∧ arg vec 1 ≠ "rights") → (w.conn t).rights &&& rightAdmin = 0 →
      (w.conn t).who = some who → ¬(who = arg vec 0 ∧ (arg vec 1 = "email" ∨ arg vec 1 = "rights")) →
      cUserinfo B t vec w = w.reply t "510 Restricted to administrators\n") ∧
    (∀ vec ad, B.scheduleGet w.db (arg vec 0) = some ad → (w.conn t).rights &&& rightAdmin = 0 →
      (kvpGet ad "who" = none ∨ (w.conn t).who = none ∨ kvpGet ad "who" ≠ (w.conn t).who) →
      cScheduleDel B t vec w = w.reply t "510 Not authorized\n") ∧
    (remoteRefused t w → ∀ vec,
      cAdduser B t vec w = w.reply t "510 Remote user management is disabled\n" ∧
      cDeluser B t vec w = w.reply t "510 Remote user management is disabled\n" ∧
      cEdituser B t vec w = w.reply t "510 Remote user management is disabled\n" ∧
      (arg vec 1 ≠ "rights" → cUserinfo B t vec w = w.reply t "510 Remote user management is disabled\n")) :=
  ⟨fun _ _ _ h => reply_keeps_state t h,
    fun _ _ _ _ _ hc hs hf hr hl => command_prohibited B t hc hs hf hr hl,
    fun _ _ hq hr => cRemove_refused B t hq hr,
    fun _ _ hq hr => cMove_refused B t hq hr,
    fun _ _ ht hq hr => cMoveafter_refused B t ht hq hr,
    fun _ _ hp hr => cScratch_refused B t hp hr,
    fun _ hs hl hr => cVolume_refused B t hs hl hr,
    fun _ _ hm ha hw hn => cEdituser_refused B t hm ha hw hn,
    fun _ _ hm ha hw hn => cUserinfo_refused B t hm ha hw hn,
    fun _ _ hg ha hw => cScheduleDel_refused B t hg ha hw,
    fun h _ => userManagement_refused B t h⟩

/-- A connection that has not logged in: `remove 1` is refused by the dispatcher and `volume 50`
by `c_volume`, each with the one `510` reply, which changes nothing but the connection's writer
and transcript. -/
theorem rights_refusal_only_replies_remove :
    let w : World Unit := { World.start () Config.plain none 0 false with
      conns := [newConn ⟨"socket", .unix, false⟩ (some "local") []], connections := [0] }
    command Backend.plain 0 (utf8 "remove 1") w = w.reply 0 "510 Prohibited\n" ∧
      cVolume Backend.plain 0 ["50"] w = w.reply 0 "510 Prohibited\n" ∧
      ∃ n w', w.reply 0 "510 Prohibited\n" = .ok (n, w') ∧ w'.db = w.db ∧ w'.connections = w.connections ∧
        w'.pending = w.pending ∧ ∀ d, ∃ wr out, w'.conn d = { w.conn d with wr := wr, out := out } := by
  intro w
  have h := rights_refusal_only_replies Backend.plain 0 w
  obtain ⟨n, w', hr⟩ : ∃ n w', w.reply 0 "510 Prohibited\n" = .ok (n, w') := ⟨_, _, rfl⟩
  exact ⟨h.2.1 _ _ _ _ _ rfl rfl rfl (by decide) (by decide), h.2.2.2.2.2.2.1 ["50"] (by decide) (by decide) (by decide),
    n, w', hr, h.1 _ n w' hr⟩

end Disorder.Server

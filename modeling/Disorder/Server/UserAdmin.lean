import Disorder.Server.Login

/-! Revoking sessions. `c_deluser`, and `c_edituser` changing a password or rights, go through the
`connections` list and compare each connection's user with the one changed. A connection that has
not logged in yet (`listen_callback` lists it at once) has no user, and `strcmp` on it is a NULL
dereference: whenever such a connection is on the list, deleting a user or changing a password or
rights halts the server. With every listed connection logged in, the connections of that user, and
no others, have their rights zeroed. -/

namespace Disorder.Server

variable {σ : Type}

/-! ### The loops over the connection list -/

section Loops

variable {w w' : World σ} {d : Nat}

theorem who_setConn {c : Conn} (hc : c.who = (w.conn d).who) (e : Nat) :
    ((w.setConn d c).conn e).who = (w.conn e).who := by
  by_cases he : e = d
  · subst he
    rcases lt_or_le e w.conns.length with hl | hl
    · rw [World.conn_setConn_self hl, hc]
    · rw [World.setConn_of_le hl]
  · rw [World.conn_setConn_ne he]

theorem who_modifyConn {f : Conn → Conn} (hf : ∀ c, (f c).who = c.who) (e : Nat) :
    ((w.modifyConn d f).conn e).who = (w.conn e).who :=
  who_setConn (hf _) e

theorem who_write {s : String} (h : w.write d s = .ok w') (e : Nat) : (w'.conn e).who = (w.conn e).who :=
  congrArg Prod.fst (write_login h e)

/-- A loop over connections that halts at one with no login, with an error its rounds can give,
and otherwise keeps every connection's login, halts if a connection it visits has no login. -/
theorem foldlM_halts {P : Halt → Prop} {f : World σ → Nat → Except Halt (World σ)}
    (hnull : ∀ w d, (w.conn d).who = none → ∃ e, P e ∧ f w d = .error e)
    (hfail : ∀ w d e, f w d = .error e → P e)
    (hkeep : ∀ w d w', f w d = .ok w' → ∀ e, (w'.conn e).who = (w.conn e).who) :
    ∀ (l : List Nat) (w : World σ) {d : Nat}, d ∈ l → (w.conn d).who = none →
      ∃ e, P e ∧ l.foldlM f w = .error e
  | [], _, _, hd, _ => nomatch hd
  | x :: xs, w, d, hd, hw => by
    rw [List.foldlM_cons]
    cases hf : f w x with
    | error e => exact ⟨e, hfail w x e hf, rfl⟩
    | ok w₁ =>
      have hx : d ≠ x := by
        rintro rfl
        obtain ⟨e, -, he⟩ := hnull w d hw
        rw [hf] at he; cases he
      exact foldlM_halts hnull hfail hkeep xs w₁ ((List.mem_cons.1 hd).resolve_left hx)
        ((hkeep w x w₁ hf d).trans hw)

variable (user : String) (r : Nat)

/-- Zeroing (or setting) rights halts on a listed connection with no login. -/
theorem zapRights_halts (h : ∃ d ∈ w.connections, (w.conn d).who = none) :
    zapRights user r w = .error (.fatal "NULL dereference") := by
  obtain ⟨d, hd, hw⟩ := h
  suffices h : ∃ e, e = Halt.fatal "NULL dereference" ∧ zapRights user r w = .error e by
    obtain ⟨e, rfl, h⟩ := h; exact h
  unfold zapRights
  refine foldlM_halts ?_ ?_ ?_ _ w hd hw
  · intro w d h; exact ⟨_, rfl, by simp [h]⟩
  · intro w d e h; split at h <;> cases h; rfl
  · intro w d w' h e
    split at h
    · cases h
    · cases h; split_ifs
      exacts [who_modifyConn (fun _ => by rfl) e, rfl]

/-- Setting rights after a rights change halts too, there or at an earlier failed write. -/
theorem setRightsLoop_halts (newRights : String) (h : ∃ d ∈ w.connections, (w.conn d).who = none) :
    ∃ e, setRightsLoop user r newRights w = .error e := by
  obtain ⟨d, hd, hw⟩ := h
  suffices h : ∃ e, True ∧ setRightsLoop user r newRights w = .error e by
    obtain ⟨e, -, h⟩ := h; exact ⟨e, h⟩
  unfold setRightsLoop
  refine foldlM_halts ?_ ?_ ?_ _ w hd hw
  · intro w d h; exact ⟨.fatal "NULL dereference", trivial, by simp [h]⟩
  · intro _ _ _ _; trivial
  · intro w d w' h e
    split at h
    · cases h
    · dsimp only at h
      split_ifs at h
      · exact (who_write h e).trans (who_modifyConn (fun _ => by rfl) e)
      · cases h; exact who_modifyConn (fun _ => by rfl) e
      · cases h; rfl

/-- A loop that, at a connection of `user`, sets its rights and at any other logged-in connection
does nothing: over a list of logged-in connections it changes exactly the listed connections of
`user`, and their rights alone. -/
theorem foldlM_zap {f : World σ → Nat → Except Halt (World σ)}
    (hf : ∀ w d who, (w.conn d).who = some who →
      f w d = .ok (if who = user then w.modifyConn d (fun c => { c with rights := r }) else w)) :
    ∀ (l : List Nat) (w : World σ), (∀ d ∈ l, (w.conn d).who.isSome) → (∀ d ∈ l, d < w.conns.length) →
      ∃ w', l.foldlM f w = .ok w' ∧ w'.connections = w.connections ∧ w'.db = w.db ∧
        w'.conns.length = w.conns.length ∧
        ∀ d, w'.conn d = if d ∈ l ∧ (w.conn d).who = some user then { w.conn d with rights := r } else w.conn d
  | [], w, _, _ => ⟨w, rfl, rfl, rfl, rfl, fun d => by simp⟩
  | x :: xs, w, hwho, hlt => by
    obtain ⟨who, hx⟩ := Option.isSome_iff_exists.1 (hwho x (List.mem_cons_self _ _))
    let w₁ := if who = user then w.modifyConn x (fun c => { c with rights := r }) else w
    have hconn : ∀ d, w₁.conn d = if d = x ∧ who = user then { w.conn d with rights := r } else w.conn d := by
      intro d
      by_cases hd : d = x
      · subst hd; by_cases hu : who = user <;>
          simp [w₁, hu, World.conn_modifyConn_self (hlt d (List.mem_cons_self _ _))]
      · by_cases hu : who = user <;> simp [w₁, hu, hd, World.modifyConn_eq]
    have hlen : w₁.conns.length = w.conns.length := by by_cases hu : who = user <;> simp [w₁, hu]
    have hwho₁ : ∀ d, (w₁.conn d).who = (w.conn d).who := fun d => by rw [hconn]; split_ifs <;> rfl
    obtain ⟨w', h, hc, hdb, hl, hw'⟩ := foldlM_zap hf xs w₁
      (fun d hd => by rw [hwho₁]; exact hwho d (List.mem_cons_of_mem _ hd))
      (fun d hd => hlen ▸ hlt d (List.mem_cons_of_mem _ hd))
    refine ⟨w', by rw [List.foldlM_cons, hf w x who hx]; exact h, ?_, ?_, hl.trans hlen, fun d => ?_⟩
    · rw [hc]; by_cases hu : who = user <;> simp [w₁, hu, World.modifyConn_eq]
    · rw [hdb]; by_cases hu : who = user <;> simp [w₁, hu, World.modifyConn_eq]
    · rw [hw', hwho₁, hconn]
      by_cases hd : d = x
      · subst hd; by_cases hu : who = user <;> simp [hu, hx]
      · simp [hd]

/-- With every listed connection logged in, `zapRights` changes the rights of exactly the
connections of `user` on the list, and nothing else. -/
theorem zapRights_exact (hwho : ∀ d ∈ w.connections, (w.conn d).who.isSome)
    (hlt : ∀ d ∈ w.connections, d < w.conns.length) :
    ∃ w', zapRights user r w = .ok w' ∧ w'.connections = w.connections ∧ w'.db = w.db ∧
      ∀ d, w'.conn d = if d ∈ w.connections ∧ (w.conn d).who = some user then { w.conn d with rights := r }
        else w.conn d := by
  suffices h : ∃ w', zapRights user r w = .ok w' ∧ w'.connections = w.connections ∧ w'.db = w.db ∧
      w'.conns.length = w.conns.length ∧ ∀ d, w'.conn d =
        if d ∈ w.connections ∧ (w.conn d).who = some user then { w.conn d with rights := r } else w.conn d by
    obtain ⟨w', h, hc, hdb, -, hw'⟩ := h; exact ⟨w', h, hc, hdb, hw'⟩
  unfold zapRights
  refine foldlM_zap user r ?_ _ w hwho hlt
  intro w d who h; simp [h]

end Loops

/-- Two connections on the local socket, `alice` and one not logged in: zeroing `alice`'s rights
changes only hers. -/
theorem zapRights_exact_alice :
    let w : World Unit := { World.start () Config.plain none 0 false with
      conns := [{ newConn ⟨"socket", .unix, false⟩ (some "local") [] with who := some "alice", rights := 1 },
        { newConn ⟨"socket", .unix, false⟩ (some "local") [] with who := some "bob", rights := 1 }],
      connections := [1, 0] }
    (∀ d ∈ w.connections, (w.conn d).who.isSome) ∧ (∀ d ∈ w.connections, d < w.conns.length) ∧
    ∃ w', zapRights "alice" 0 w = .ok w' ∧ w'.connections = w.connections ∧ w'.db = w.db ∧
      ∀ d, w'.conn d = if d ∈ w.connections ∧ (w.conn d).who = some "alice" then { w.conn d with rights := 0 }
        else w.conn d :=
  ⟨by decide, by decide, zapRights_exact "alice" 0 (by decide) (by decide)⟩

/-! ### Deleting a user, or changing a password or rights -/

variable (B : Backend σ) (t : Nat) {w : World σ}

/-- With a connection on the list that has not logged in, a user deletion and a password change
that the database accepts halt the server with a NULL dereference, and so does a rights change
that parses; with the local right or remote user management, and (for an edit) `admin`. -/
theorem user_edits_null_who (hnull : ∃ d ∈ w.connections, (w.conn d).who = none)
    (hlocal : remoteRefused t w = false) (u v : String) :
    ((B.trackdbDeluser w.db u).1 = 0 → cDeluser B t [u] w = .error (.fatal "NULL dereference")) ∧
    ((w.conn t).rights &&& rightAdmin ≠ 0 → (B.trackdbEdituserinfo w.db u "password" v).1 = 0 →
      cEdituser B t [u, "password", v] w = .error (.fatal "NULL dereference")) ∧
    ((w.conn t).rights &&& rightAdmin ≠ 0 → (B.trackdbEdituserinfo w.db u "rights" v).1 = 0 →
      (B.parseRights (some v)).isSome → ∃ e, cEdituser B t [u, "rights", v] w = .error e) := by
  refine ⟨fun hdel => ?_, fun hadmin hed => ?_, fun hadmin hed hparse => ?_⟩
  · rcases hd : B.trackdbDeluser w.db u with ⟨n, db⟩
    obtain rfl : n = 0 := by simpa [hd] using hdel
    simp only [cDeluser, hlocal, hd, arg, List.getD_cons_zero, Bool.false_eq_true, if_false]
    rw [zapRights_halts _ _ (w := { w with db := db }) hnull]; rfl
  · rcases hd : B.trackdbEdituserinfo w.db u "password" v with ⟨n, db⟩
    obtain rfl : n = 0 := by simpa [hd] using hed
    simp only [cEdituser, hlocal, hadmin, hd, arg, Bool.false_eq_true, if_false, if_true, ne_eq,
      not_false_eq_true, List.getD_cons_zero, List.getD_cons_succ]
    rw [zapRights_halts _ _ (w := { w with db := db }) hnull]; rfl
  · rcases hd : B.trackdbEdituserinfo w.db u "rights" v with ⟨n, db⟩
    obtain rfl : n = 0 := by simpa [hd] using hed
    obtain ⟨r, hr⟩ := Option.isSome_iff_exists.1 hparse
    obtain ⟨e, he⟩ := setRightsLoop_halts u r (B.rightsString r) (w := { w with db := db }) hnull
    refine ⟨e, ?_⟩
    simp only [cEdituser, hlocal, hadmin, hd, hr, arg, Bool.false_eq_true, if_false, if_true, ne_eq,
      not_false_eq_true, List.getD_cons_zero, List.getD_cons_succ, he]
    rfl

/-- The plain collaborators with `alice` an administrator, and user deletions and edits that the
database accepts. -/
def Backend.admin : Backend Unit :=
  { Backend.plain with
    parseRights := fun s => s.map fun _ => rightAdmin ||| rightRead
    trackdbDeluser := fun db _ => (0, db)
    trackdbEdituserinfo := fun db _ _ _ => (0, db) }

/-- `alice`, an administrator on the local socket, and a connection that has just arrived. -/
theorem user_edits_null_who_fresh :
    let w : World Unit := { World.start () Config.plain none 0 false with
      conns := [{ newConn ⟨"socket", .unix, false⟩ (some "local") [] with
          who := some "alice", rights := rightAdmin ||| rightRead ||| rightLocal },
        newConn ⟨"socket", .unix, false⟩ (some "local") []],
      connections := [1, 0] }
    ((∃ d ∈ w.connections, (w.conn d).who = none) ∧ remoteRefused 0 w = false) ∧
    ((Backend.admin.trackdbDeluser w.db "bob").1 = 0 → cDeluser Backend.admin 0 ["bob"] w = .error (.fatal "NULL dereference")) ∧
    ((w.conn 0).rights &&& rightAdmin ≠ 0 → (Backend.admin.trackdbEdituserinfo w.db "bob" "password" "x").1 = 0 →
      cEdituser Backend.admin 0 ["bob", "password", "x"] w = .error (.fatal "NULL dereference")) ∧
    ((w.conn 0).rights &&& rightAdmin ≠ 0 → (Backend.admin.trackdbEdituserinfo w.db "bob" "rights" "x").1 = 0 →
      (Backend.admin.parseRights (some "x")).isSome → ∃ e, cEdituser Backend.admin 0 ["bob", "rights", "x"] w = .error e) :=
  ⟨⟨by decide, by decide⟩, user_edits_null_who Backend.admin 0 (by decide) (by decide) "bob" "x"⟩

/-- The whole run: `alice` logs in on the local socket, a second connection arrives, and `alice`
deletes `bob`. -/
theorem deluser_halts_after_accept :
    run Backend.admin (World.start () Config.plain none 0 false)
      [.accept ⟨"socket", .unix, false⟩ (some "local"), .read 0 (.data (utf8 "user alice pw\n")),
        .accept ⟨"socket", .unix, false⟩ (some "local"), .read 0 (.data (utf8 "deluser bob\n"))] =
      .error (.fatal "NULL dereference") := by
  rfl

end Disorder.Server

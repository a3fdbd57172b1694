import Disorder.Server.Session

/-! Logins: `user`, `cookie` and `confirm`. Each either leaves the connection's login (its user,
rights and cookie) as it was, or logs the connection in with the rights it looked up, ORed with
`RIGHT__LOCAL` when `connection_host` says "local". `connection_host` says so for every UNIX-domain
listener, privileged or not: the privileged listener only lets `user` skip the password check.
`user` and `cookie` refuse a connection that is logged in already; `confirm` does not look, so a
logged-in connection that presents a valid confirmation string becomes that user. -/

namespace Disorder.Server

variable {σ : Type} (B : Backend σ) (t : Nat)

/-- A connection's login: its user, rights and cookie. -/
def Conn.login (c : Conn) : Option String × Nat × Option String := (c.who, c.rights, c.cookie)

/-- `RIGHT__LOCAL` for a connection that came in on a UNIX-domain listener. -/
def localRight (c : Conn) : Nat := if c.l.pf = .unix then rightLocal else 0

/-! ### What a reply leaves alone -/

section Frame

variable {w w' : World σ} {t}

@[simp] theorem login_with_wr_out (c : Conn) (wr : Event.Writer) (out : List String) :
    ({ c with wr := wr, out := out } : Conn).login = c.login := rfl

theorem setConn_login {c : Conn} (hc : c.login = (w.conn t).login) (d : Nat) :
    ((w.setConn t c).conn d).login = (w.conn d).login := by
  by_cases hd : d = t
  · subst hd
    rcases lt_or_le d w.conns.length with hl | hl
    · rw [World.conn_setConn_self hl, hc]
    · simp [World.setConn, List.set_eq_of_length_le hl]
  · rw [World.conn_setConn_ne hd]

theorem write_login {s : String} (h : w.write t s = .ok w') (d : Nat) :
    (w'.conn d).login = (w.conn d).login := by
  obtain ⟨wr, -, rfl⟩ := World.write_frame h
  exact setConn_login (login_with_wr_out _ _ _) d

theorem reply_login {s : String} {n : Int} (h : w.reply t s = .ok (n, w')) (d : Nat) :
    (w'.conn d).login = (w.conn d).login := by
  obtain ⟨-, wr, -, rfl⟩ := World.reply_frame h
  exact setConn_login (login_with_wr_out _ _ _) d

end Frame

/-- What `connection_host` returns decides `RIGHT__LOCAL`: "local" exactly on a UNIX-domain
listener, as a TCP peer's numeric address is never "local". -/
theorem loginRights_eq {c : Conn} {host : String} (hh : connectionHost c = some host)
    (hpeer : c.l.pf ≠ .unix → c.peer ≠ some "local") (r : Nat) :
    loginRights host r = r ||| localRight c := by
  unfold connectionHost at hh
  split at hh
  · cases hh
  · rename_i peer hp
    by_cases hu : c.l.pf = .unix
    · simp only [hu, ne_eq, not_true_eq_false, if_false, Option.some.injEq] at hh
      simp [loginRights, localRight, hu, ← hh]
    · simp only [hu, ne_eq, not_false_eq_true, if_true, Option.some.injEq] at hh
      have : host ≠ "local" := fun e => hpeer hu (hp ▸ hh ▸ e ▸ rfl)
      simp [loginRights, localRight, hu, this]

/-! ### The three logins -/

section Refusals

variable {w w' : World σ} {n : Int} {t}

/-- A refused login: the handler appended one `5xx` line to the connection's transcript and left
its login as it was. -/
def Refused (w w' : World σ) (t : Nat) : Prop :=
  ∃ s : String, s.data.head? = some '5' ∧ (w'.conn t).out = (w.conn t).out ++ [s] ∧
    (w'.conn t).login = (w.conn t).login

theorem Refused.of_reply {s : String} (hs : s.data.head? = some '5') (ht : t < w.conns.length)
    (h : w.reply t s = .ok (n, w')) : Refused w w' t := by
  obtain ⟨-, wr, -, rfl⟩ := World.reply_frame h
  rw [Refused, World.conn_setConn_self ht]
  exact ⟨s, hs, rfl, rfl⟩

/-- A refused login did not reply with a `2xx` line. -/
theorem Refused.not_two {s : String} (hr : Refused w w' t) (hout : (w'.conn t).out = (w.conn t).out ++ [s])
    (hs : s.data.head? = some '2') : False := by
  obtain ⟨s', hs', ho, -⟩ := hr
  have : s' = s := List.singleton_inj.1 (List.append_cancel_left (ho.symm.trans hout))
  rw [this, hs] at hs'
  cases hs'

end Refusals

section Logins

variable {vec : List String} {w w' : World σ} {n : Int}

/-- The connection's login after a login: `user` logged in with `login`, or as before. -/
theorem conn_login_after {s : String} {f : Conn → Conn} (ht : t < w.conns.length)
    (h : (w.modifyConn t f).reply t s = .ok (n, w')) : (w'.conn t).login = (f (w.conn t)).login := by
  rw [reply_login h, World.modifyConn_eq, World.conn_setConn_self ht]

/-- `user`: refused, or the connection is the named user with the rights of the user's record. -/
theorem cUser_cases (ht : t < w.conns.length) (h : cUser B t vec w = .ok (n, w')) :
    Refused w w' t ∨
      ∃ host k r, connectionHost (w.conn t) = some host ∧
        B.trackdbGetuserinfo w.db (arg vec 0) = some k ∧ B.parseRights (kvpGet k "rights") = some r ∧
        (w'.conn t).login = (some (arg vec 0), loginRights host r, (w.conn t).cookie) := by
  unfold cUser at h
  dsimp only at h
  split at h
  · exact .inl (.of_reply (by decide) ht h)
  split at h
  · exact .inl (.of_reply (by decide) ht h)
  rename_i host hh
  split at h
  · exact .inl (.of_reply (by decide) ht h)
  rename_i k hk
  split at h
  · exact .inl (.of_reply (by decide) ht h)
  split at h
  · exact .inl (.of_reply (by decide) ht h)
  rename_i r hr
  split at h
  · exact .inr ⟨host, k, r, hh, hk, hr, conn_login_after t ht h⟩
  · exact .inl (.of_reply (by decide) ht h)

/-- `cookie`: refused, or the connection is the cookie's user with its rights and the cookie. -/
theorem cCookie_cases (ht : t < w.conns.length) (h : cCookie B t vec w = .ok (n, w')) :
    Refused w w' t ∨
      ∃ host user r, connectionHost (w.conn t) = some host ∧
        B.verifyCookie w.db (arg vec 0) = some (user, r) ∧
        (w'.conn t).login = (some user, loginRights host r, some (arg vec 0)) := by
  unfold cCookie at h
  dsimp only at h
  split at h
  · exact .inl (.of_reply (by decide) ht h)
  split at h
  · exact .inl (.of_reply (by decide) ht h)
  rename_i host hh
  split at h
  · exact .inl (.of_reply (by decide) ht h)
  rename_i user r hv
  exact .inr ⟨host, user, r, hh, hv, conn_login_after t ht h⟩

/-- `confirm`: refused, or the connection is the confirmed user, with the rights the confirmation
gives and no cookie. -/
theorem cConfirm_cases (ht : t < w.conns.length) (h : cConfirm B t vec w = .ok (n, w')) :
    Refused w w' t ∨
      ∃ host r db, connectionHost (w.conn t) = some host ∧
        B.trackdbConfirm w.db (confirmUser (arg vec 0)) (arg vec 0) = (some r, db) ∧
        (w'.conn t).login = (some (confirmUser (arg vec 0)), loginRights host r, none) := by
  unfold cConfirm at h
  dsimp only at h
  split at h
  · exact .inl (.of_reply (by decide) ht h)
  rename_i host hh
  split at h
  · exact .inl (.of_reply (by decide) ht h)
  split at h
  · rename_i db _
    exact .inl (.of_reply (w := { w with db := db }) (by decide) ht h)
  rename_i r db hc
  refine .inr ⟨host, r, db, hh, hc, ?_⟩
  rw [reply_login h, World.modifyConn_eq, World.conn_setConn_self (by simpa using ht)]
  rfl

end Logins

/-! ### `RIGHT__LOCAL` comes with the socket family -/

/-- A password login on the unprivileged UNIX-domain socket: the connection is not privileged,
yet it gets `RIGHT__LOCAL`. -/
theorem user_on_unprivileged_socket_is_local :
    (run Backend.plain (World.start () Config.plain none 0 false)
        [.accept ⟨"socket", .unix, false⟩ (some "local"), .read 0 (.data (utf8 "user alice pw\n"))]).toOption.map
      (fun w => ((w.conn 0).l.privileged, (w.conn 0).rights)) = some (false, rightRead ||| rightLocal) := by
  decide

/-- Every successful login, the one whose reply is `230` (`user`) or `232` (`cookie`, `confirm`),
gives the rights it looked up, with `RIGHT__LOCAL` added exactly when the connection came in on a
UNIX-domain listener. -/
theorem login_rights_local_iff_unix (vec : List String) (w : World σ) (ht : t < w.conns.length)
    (hpeer : (w.conn t).l.pf ≠ .unix → (w.conn t).peer ≠ some "local") :
    (∀ n w', cUser B t vec w = .ok (n, w') → (w'.conn t).out = (w.conn t).out ++ ["230 OK\n"] →
      ∃ k r, B.trackdbGetuserinfo w.db (arg vec 0) = some k ∧ B.parseRights (kvpGet k "rights") = some r ∧
        (w'.conn t).rights = r ||| localRight (w.conn t)) ∧
    (∀ n w' u, cCookie B t vec w = .ok (n, w') →
      (w'.conn t).out = (w.conn t).out ++ ["232 " ++ Client.quoteutf8 u ++ "\n"] →
      ∃ user r, B.verifyCookie w.db (arg vec 0) = some (user, r) ∧
        (w'.conn t).rights = r ||| localRight (w.conn t)) ∧
    (∀ n w' u, cConfirm B t vec w = .ok (n, w') →
      (w'.conn t).out = (w.conn t).out ++ ["232 " ++ Client.quoteutf8 u ++ "\n"] →
      ∃ r db, B.trackdbConfirm w.db (confirmUser (arg vec 0)) (arg vec 0) = (some r, db) ∧
        (w'.conn t).rights = r ||| localRight (w.conn t)) := by
  have hr {w' : World σ} {host : String} {r : Nat} {x y} (hh : connectionHost (w.conn t) = some host)
      (hl : (w'.conn t).login = (x, loginRights host r, y)) : (w'.conn t).rights = r ||| localRight (w.conn t) :=
    (congrArg (·.2.1) hl).trans (loginRights_eq hh hpeer r)
  refine ⟨fun n w' h hout => ?_, fun n w' u h hout => ?_, fun n w' u h hout => ?_⟩
  · obtain h | ⟨host, k, r, hh, hk, hp, hl⟩ := cUser_cases B t ht h
    exacts [(h.not_two hout rfl).elim, ⟨k, r, hk, hp, hr hh hl⟩]
  · obtain h | ⟨host, user, r, hh, hv, hl⟩ := cCookie_cases B t ht h
    exacts [(h.not_two hout rfl).elim, ⟨user, r, hv, hr hh hl⟩]
  · obtain h | ⟨host, r, db, hh, hc, hl⟩ := cConfirm_cases B t ht h
    exacts [(h.not_two hout rfl).elim, ⟨r, db, hc, hr hh hl⟩]

/-- A password login on the unprivileged UNIX-domain socket replies `230`, and its rights are the
user's with `RIGHT__LOCAL`. -/
theorem login_rights_local_iff_unix_socket :
    let w : World Unit := { World.start () Config.plain none 0 false with
      conns := [newConn ⟨"socket", .unix, false⟩ (some "local") []], connections := [0] }
    0 < w.conns.length ∧ ((w.conn 0).l.pf ≠ .unix → (w.conn 0).peer ≠ some "local") ∧
      ∃ n w', cUser Backend.plain 0 ["alice", "pw"] w = .ok (n, w') ∧
        (w'.conn 0).out = (w.conn 0).out ++ ["230 OK\n"] ∧
        ∃ k r, Backend.plain.trackdbGetuserinfo w.db (arg ["alice", "pw"] 0) = some k ∧
          Backend.plain.parseRights (kvpGet k "rights") = some r ∧
          (w'.conn 0).rights = r ||| localRight (w.conn 0) := by
  refine ⟨by decide, by decide, _, _, rfl, by decide, ?_⟩
  exact (login_rights_local_iff_unix Backend.plain 0 ["alice", "pw"] _ (by decide) (by decide)).1 _ _ rfl (by decide)

/-! ### A second login -/

section Relogin

variable {w : World σ} {vec : List String}

/-- `user` on a logged-in connection is refused with a reply and nothing else. -/
theorem cUser_logged_in (h : (w.conn t).who.isSome) :
    cUser B t vec w = w.reply t "530 already authenticated\n" := by
  simp [cUser, h]

/-- `cookie` on a logged-in connection is refused with a reply and nothing else. -/
theorem cCookie_logged_in (h : (w.conn t).who.isSome) :
    cCookie B t vec w = w.reply t "530 already authenticated\n" := by
  simp [cCookie, h]

/-- A connection logged in as `u` that sends `confirm` with a valid confirmation string of
another user becomes that user, with the rights of the confirmation and no cookie, where `user`
and `cookie` on the same connection are refused. -/
theorem confirm_switches_login {line : List UInt8} {l s host u : String} {r : Nat} {db : σ}
    (hcanon : B.utf8ComposeCanon line = some l) (hsplit : B.split l = .ok ["confirm", s])
    (ht : t < w.conns.length) (hw : (w.conn t).w) (hfd : (w.conn t).wr.fd)
    (hwho : (w.conn t).who = some u) (hhost : connectionHost (w.conn t) = some host)
    (hs : '/' ∈ s.toList) (hconf : B.trackdbConfirm w.db (confirmUser s) s = (some r, db))
    (hne : confirmUser s ≠ u) :
    ∃ w', command B t line w = .ok (1, w') ∧
      (w'.conn t).login = (some (confirmUser s), loginRights host r, none) ∧
      (w'.conn t).who ≠ (w.conn t).who ∧
      ∀ vec, cUser B t vec w = w.reply t "530 already authenticated\n" ∧
        cCookie B t vec w = w.reply t "530 already authenticated\n" := by
  have hin : (w.conn t).who.isSome := by rw [hwho]; rfl
  rw [command_eq_handler B t hcanon hsplit (tableFind_confirm B) (.inl rfl) (by simp) (by simp)]
  let login (c : Conn) : Conn :=
    { c with who := some (confirmUser s), cookie := none, rights := loginRights host r }
  let w₁ := ({ w with db := db } : World σ).modifyConn t login
  have ht₁ : t < ({ w with db := db } : World σ).conns.length := ht
  have hc₁ : w₁.conn t = login (w.conn t) := World.conn_setConn_self ht₁
  obtain ⟨wr, -, hwr⟩ := World.write_live (s := "232 " ++ Client.quoteutf8 (confirmUser s) ++ "\n")
    (hc₁ ▸ hw : (w₁.conn t).w) (hc₁ ▸ hfd : (w₁.conn t).wr.fd)
  have hrun : cConfirm B t [s] w = w₁.reply t ("232 " ++ Client.quoteutf8 (confirmUser s) ++ "\n") := by
    simp [cConfirm, hhost, arg, show '/' ∈ s.data from hs, hconf, w₁, login]
  refine ⟨_, show cConfirm B t [s] w = _ by rw [hrun, World.reply, hwr]; rfl, ?_, ?_,
    fun _ => ⟨cUser_logged_in B t hin, cCookie_logged_in B t hin⟩⟩
  · rw [World.conn_setConn_self (by simpa [w₁, World.modifyConn] using ht₁), login_with_wr_out, hc₁]; rfl
  · rw [World.conn_setConn_self (by simpa [w₁, World.modifyConn] using ht₁), hc₁, hwho]
    simpa [login] using hne

/-- Logged in as `alice` on the UNIX-domain socket, the connection sends `confirm bob/key` and is
then `bob`. -/
theorem confirm_switches_login_alice_bob :
    let w : World Unit := { World.start () Config.plain none 0 false with
      conns := [{ newConn ⟨"socket", .unix, false⟩ (some "local") [] with
        who := some "alice", rights := rightRead ||| rightLocal }], connections := [0] }
    ∃ w', command Backend.plain 0 (utf8 "confirm bob/key") w = .ok (1, w') ∧
      (w'.conn 0).login = (some (confirmUser "bob/key"), loginRights "local" rightRead, none) ∧
      (w'.conn 0).who ≠ (w.conn 0).who ∧
      ∀ vec, cUser Backend.plain 0 vec w = w.reply 0 "530 already authenticated\n" ∧
        cCookie Backend.plain 0 vec w = w.reply 0 "530 already authenticated\n" :=
  confirm_switches_login Backend.plain 0 (u := "alice") rfl rfl (by decide) rfl rfl rfl rfl
    (by decide) rfl (by decide)

end Relogin

end Disorder.Server

import Disorder.Server.Frame

/-! Who the event log's lines reach. A message is fanned out to every connection that `c_log`
subscribed, through `logclient`, one call each. A `user_*` message reaches a connection only if it
has `admin`, and a TCP connection only if remote user management is enabled or it has
`RIGHT__LOCAL`; a connection whose reader or writer has gone gets no line and is unsubscribed.
Both are proved of a whole fan-out, from what one call does to its own connection object and that
it leaves every other alone. -/

namespace Disorder.Server

open World

variable {σ : Type}

/-- What a fan-out of `msg` at time `now` may do to a connection object `c`, making it `c'`: add
the message's line to its transcript or nothing, add it only where `msg` may go, and only
unsubscribe a connection whose reader or writer has gone. -/
structure LogStep (msg : String) (config : Config) (now : Int) (c c' : Conn) : Prop where
  appended : c'.out = c.out ∨ c'.out = c.out ++ [hexTime now ++ " " ++ msg ++ "\n"]
  restricted : c'.out ≠ c.out → isUserMessage msg →
    c.rights &&& rightAdmin ≠ 0 ∧ (config.remoteUserman ∨ c.rights &&& rightLocal ≠ 0)
  closed : c.w = false ∨ c.r = false → c'.out = c.out ∧ c'.lo = false

theorem LogStep.refl {msg : String} {config : Config} {now : Int} {c : Conn} (hlo : c.lo = false) :
    LogStep msg config now c c :=
  ⟨.inl rfl, fun hne => absurd rfl hne, fun _ => ⟨rfl, hlo⟩⟩

/-! ### One log client -/

section Logclient

variable {msg : String} {w w' : World σ} {d : Nat}

/-- A connection object past the end of `conns` is the default one, which is not subscribed. -/
theorem conn_lo_of_le (hd : w.conns.length ≤ d) : (w.conn d).lo = false := by
  rw [conn, List.getD_eq_default _ _ hd]; rfl

/-- A connection object with a writer is one of `conns`. -/
theorem lt_of_conn_w (h : (w.conn d).w = true) : d < w.conns.length := by
  by_contra hd
  rw [conn, List.getD_eq_default _ _ (Nat.le_of_not_lt hd)] at h
  cases h

/-- `logclient` touches no connection object but its own, nor the configuration or the time. -/
theorem logclient_frame (h : logclient msg d w = .ok w') :
    w'.config = w.config ∧ w'.now = w.now ∧ ∀ d' ≠ d, w'.conn d' = w.conn d' := by
  unfold logclient at h
  dsimp only at h
  split_ifs at h
  · cases h; exact ⟨rfl, rfl, fun _ hd => conn_setConn_ne hd⟩
  · cases h; exact ⟨rfl, rfl, fun _ _ => rfl⟩
  · cases h; exact ⟨rfl, rfl, fun _ _ => rfl⟩
  · obtain ⟨wr, -, rfl⟩ := write_frame h
    exact ⟨rfl, rfl, fun _ hd => conn_setConn_ne hd⟩

/-- What `logclient` does to its own connection object. -/
theorem logclient_self (h : logclient msg d w = .ok w') :
    LogStep msg w.config w.now (w.conn d) (w'.conn d) := by
  unfold logclient at h
  dsimp only at h
  split_ifs at h with hgone hadmin hlocal
  · cases h
    rcases lt_or_le d w.conns.length with hd | hd
    · rw [conn_modifyConn_self hd]
      exact ⟨.inl rfl, fun hne => absurd rfl hne, fun _ => ⟨rfl, rfl⟩⟩
    · rw [modifyConn_eq, setConn_of_le hd]
      exact .refl (conn_lo_of_le hd)
  all_goals
    simp only [Bool.or_eq_true, Bool.not_eq_true', not_or, Bool.not_eq_false] at hgone
    have hlive : ¬((w.conn d).w = false ∨ (w.conn d).r = false) := by simp [hgone.1, hgone.2]
  · cases h; exact ⟨.inl rfl, fun hne => absurd rfl hne, fun h => absurd h hlive⟩
  · cases h; exact ⟨.inl rfl, fun hne => absurd rfl hne, fun h => absurd h hlive⟩
  · obtain ⟨wr, -, rfl⟩ := write_frame h
    refine ⟨.inr (by rw [conn_setConn_self (lt_of_conn_w hgone.1)]),
      fun _ hu => ⟨fun ha => hadmin ⟨hu, ha⟩, ?_⟩, fun h => absurd h hlive⟩
    by_contra hn
    simp only [not_or, Bool.not_eq_true, ne_eq, not_not] at hn
    exact hlocal ⟨hu, by simp [hn.1], hn.2⟩

theorem fanoutStep_frame (h : fanoutStep msg w d = .ok w') :
    w'.config = w.config ∧ w'.now = w.now ∧ ∀ d' ≠ d, w'.conn d' = w.conn d' := by
  unfold fanoutStep at h
  split_ifs at h
  · exact logclient_frame h
  · cases h; exact ⟨rfl, rfl, fun _ _ => rfl⟩

theorem fanoutStep_self (h : fanoutStep msg w d = .ok w') :
    LogStep msg w.config w.now (w.conn d) (w'.conn d) := by
  unfold fanoutStep at h
  split_ifs at h with hlo
  · exact logclient_self h
  · cases h; exact .refl (by simpa using hlo)

end Logclient

/-! ### A whole fan-out -/

section Fanout

variable {msg : String}

/-- Log clients called in turn, each once: each connection object called on changes as `LogStep`
allows, and every other is left alone. -/
theorem foldlM_fanoutStep : ∀ (l : List Nat) {u u' : World σ}, l.Nodup →
    l.foldlM (fanoutStep msg) u = .ok u' → u'.config = u.config ∧ u'.now = u.now ∧
      ∀ d, (d ∉ l → u'.conn d = u.conn d) ∧
        (d ∈ l → LogStep msg u.config u.now (u.conn d) (u'.conn d))
  | [], _, _, _, h => by
    cases h; exact ⟨rfl, rfl, fun _ => ⟨fun _ => rfl, fun h => absurd h (List.not_mem_nil _)⟩⟩
  | d :: l, u, u', hnd, h => by
    rw [List.foldlM_cons] at h
    obtain ⟨hd, hl⟩ := List.nodup_cons.1 hnd
    cases hu : fanoutStep msg u d with
    | error e => rw [hu] at h; cases h
    | ok u₁ =>
      rw [hu] at h
      obtain ⟨hc₁, hn₁, hf₁⟩ := fanoutStep_frame hu
      obtain ⟨hc, hn, hrest⟩ := foldlM_fanoutStep l hl h
      refine ⟨hc.trans hc₁, hn.trans hn₁, fun d₀ => ⟨fun hn => ?_, fun hm => ?_⟩⟩
      · rw [List.mem_cons, not_or] at hn
        rw [(hrest d₀).1 hn.2, hf₁ d₀ hn.1]
      · rcases List.mem_cons.1 hm with rfl | hm
        · rw [(hrest d₀).1 hd]; exact fanoutStep_self hu
        · have hne : d₀ ≠ d := fun he => hd (he ▸ hm)
          have h₀ := (hrest d₀).2 hm
          rwa [hc₁, hn₁, hf₁ d₀ hne] at h₀

/-- What a fan-out does to each connection object. -/
theorem eventlogFanout_logStep {w w' : World σ} (h : eventlogFanout msg w = .ok w') (d : Nat) :
    LogStep msg w.config w.now (w.conn d) (w'.conn d) := by
  obtain ⟨-, -, hall⟩ := foldlM_fanoutStep _ (List.nodup_range _) h
  by_cases hd : d ∈ List.range w.conns.length
  · exact (hall d).2 hd
  · rw [(hall d).1 hd]
    exact .refl (conn_lo_of_le (by simpa using hd))

end Fanout

/-! ### The event as the server sees it -/

variable (B : Backend σ)

/-- A `user_*` event-log message reaches only connections with `admin`, and a TCP connection
only if remote user management is enabled or it has `RIGHT__LOCAL`. -/
theorem eventlog_user_restricted {msg : String} {w w' : World σ} (hmsg : isUserMessage msg)
    (h : step B w (.eventlog msg) = .ok w') (d : Nat) (hd : (w'.conn d).out ≠ (w.conn d).out) :
    (w.conn d).rights &&& rightAdmin ≠ 0 ∧
      (w.config.remoteUserman ∨ (w.conn d).rights &&& rightLocal ≠ 0) :=
  (eventlogFanout_logStep h d).restricted hd hmsg

/-- An administrator on the local socket, subscribed to the event log, is told of a new user. -/
theorem eventlog_user_restricted_admin :
    let w : World Unit := { World.start () Config.plain none 0 false with
      conns := [{ newConn ⟨"socket", .unix, false⟩ (some "local") [] with
        lo := true, rights := rightAdmin ||| rightLocal }], connections := [0] }
    ∃ w', step Backend.plain w (.eventlog "user_add bob") = .ok w' ∧
      (w'.conn 0).out ≠ (w.conn 0).out ∧ (w.conn 0).rights &&& rightAdmin ≠ 0 ∧
        (w.config.remoteUserman ∨ (w.conn 0).rights &&& rightLocal ≠ 0) :=
  Exists.imp (fun _ (h : _ ∧ _) =>
    ⟨h.1, h.2, eventlog_user_restricted Backend.plain (by decide) h.1 0 h.2⟩) ⟨_, rfl, by decide⟩

/-- A connection whose reader or writer has gone gets no event-log line, and is unsubscribed. -/
theorem eventlog_skips_closed {msg : String} {w w' : World σ}
    (h : step B w (.eventlog msg) = .ok w') (d : Nat)
    (hd : (w.conn d).w = false ∨ (w.conn d).r = false) :
    (w'.conn d).out = (w.conn d).out ∧ (w'.conn d).lo = false :=
  (eventlogFanout_logStep h d).closed hd

/-- A subscribed connection whose writer has gone. -/
theorem eventlog_skips_closed_writer :
    let w : World Unit := { World.start () Config.plain none 0 false with
      conns := [{ newConn ⟨"socket", .unix, false⟩ (some "local") [] with lo := true, w := false }],
      connections := [0] }
    ∃ w', step Backend.plain w (.eventlog "volume 50 50") = .ok w' ∧
      (w'.conn 0).out = (w.conn 0).out ∧ (w'.conn 0).lo = false :=
  Exists.imp (fun _ h => ⟨h, eventlog_skips_closed Backend.plain h 0 (.inl rfl)⟩) ⟨_, rfl⟩

end Disorder.Server

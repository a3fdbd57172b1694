import Disorder.Event.Fds

/-! The reactor of lib/event.c around `select`: its descriptor tables, the `escape` flag, the
signal table and the signal pipe. The calls a callback can make on it are `ev_fd`,
`ev_fd_cancel`, `ev_fd_enable`, `ev_fd_disable`, `ev_signal` and `ev_signal_cancel`; all but
`ev_fd_enable` (and a refused registration) set `escape`. After `select`, `ev_run`'s dispatch pass
clears `escape` and walks the modes and their tables, calling the callback of each tripped
registration, and stops as soon as `escape` is set. Proved: every callback the pass calls belongs to
a registration at its slot in the tables as they were when `select` returned, for a descriptor that
was enabled and that `select` reported, and it is called while `escape` is clear, the tables, the
tripped sets and the signal table unchanged; and no callback but the pass's last made a call that
sets `escape`. Signals reach the reactor through the pipe: the handler writes the signal's number
into it and `signal_read` reads one number and calls that signal's callback. `ev_signal_cancel`
clears the callback and leaves the pipe alone, so a number written before the cancel is read after
it and called through a null callback; without a cancel, no read calls through a null callback. -/

namespace Disorder.Event

/-- `NSIG` and `UCHAR_MAX`. -/
def NSIG : Nat := 65
def UCHAR_MAX : Nat := 255

/-- The callback number of `signal_read`, the callback of the signal pipe's read end. -/
def signalReadCallback : Nat := 0

/-- An `ev_source`, as far as these calls reach: the tables of the three modes, `escape`, each
signal's callback and user data (`none` for a null callback), and the signal pipe's ends, once
made, with the numbers written into it and not yet read. -/
structure Reactor where
  modes : Tables
  escape : Bool
  signals : Nat → Option (Nat × Nat)
  sigpipe : Option (Nat × Nat)
  pipe : List Nat

/-- The calls a callback can make on the reactor. `ev_signal` carries the two descriptors `pipe`
would return, should it make the signal pipe. -/
inductive Call where
  | fd (mode : FdMode) (fd callback u : Nat)
  | fdCancel (mode : FdMode) (fd : Nat)
  | fdEnable (mode : FdMode) (fd : Nat)
  | fdDisable (mode : FdMode) (fd : Nat)
  | signal (sig callback u rd wr : Nat)
  | signalCancel (sig : Nat)
  deriving DecidableEq, Repr

namespace Reactor

/-- `ev_new`. -/
def new : Reactor := ⟨fun _ => Table.new, false, fun _ => none, none, []⟩

/-- One mode's table replaced. -/
def setMode (r : Reactor) (m : FdMode) (t : Table) : Reactor := { r with modes := Function.update r.modes m t }

/-- `ev_fd`: a refused descriptor changes nothing; otherwise the registration and `escape`. -/
def fd (r : Reactor) (m : FdMode) (fd callback u : Nat) : Reactor :=
  if fd < FD_SETSIZE then { r.setMode m ((r.modes m).register fd callback u) with escape := true } else r

/-- One call. `ev_signal` asserts its signal is in range, makes the signal pipe and registers its
read end the first time (giving up if that registration is refused), installs the handler and sets
`escape`; `ev_signal_cancel` restores the old handler, clears the callback and sets `escape`. -/
def call (r : Reactor) : Call → Except String Reactor
  | .fd m fd cb u => .ok (r.fd m fd cb u)
  | .fdCancel m fd => ((r.modes m).cancel fd).map fun t => { r.setMode m t with escape := true }
  | .fdEnable m fd => .ok (r.setMode m ((r.modes m).enable fd))
  | .fdDisable m fd => .ok { r.setMode m ((r.modes m).disable fd) with escape := true }
  | .signal sig cb u rd wr =>
    if ¬(0 < sig ∧ sig < NSIG ∧ sig ≤ UCHAR_MAX) then .error "abort" else
    if r.sigpipe.isNone ∧ FD_SETSIZE ≤ rd then .ok r else
    let r := if r.sigpipe.isNone then { r.fd .read rd signalReadCallback 0 with sigpipe := some (rd, wr) } else r
    .ok { r with signals := Function.update r.signals sig (some (cb, u)), escape := true }
  | .signalCancel sig => .ok { r with signals := Function.update r.signals sig none, escape := true }

/-- The calls of one callback, in order. -/
def calls (r : Reactor) : List Call → Except String Reactor
  | [] => .ok r
  | c :: cs => (r.call c).bind (calls · cs)

/-- `ev_run` copies each mode's enabled set to its tripped set, and `select` keeps those it reports
ready. -/
def select (r : Reactor) (ready : FdMode → Finset Nat) : Reactor :=
  { r with modes := fun m => { r.modes m with tripped := (r.modes m).enabled ∩ ready m } }

/-- Whether call `c`, made on `r`, sets `escape`: `ev_fd` when it accepts the descriptor,
`ev_fd_cancel`, `ev_fd_disable`, `ev_signal` when it registers (the signal pipe exists, or its read
end is accepted) and `ev_signal_cancel` do; `ev_fd_enable` does not. -/
def escapes (r : Reactor) : Call → Bool
  | .fd _ fd _ _ => decide (fd < FD_SETSIZE)
  | .fdEnable .. => false
  | .signal _ _ _ rd _ => r.sigpipe.isSome || decide (rd < FD_SETSIZE)
  | _ => true

/-- No call of `cs`, made in order from `r`, sets `escape`. -/
def NoEscape (r : Reactor) (cs : List Call) : Prop :=
  ∀ pre c post s, cs = pre ++ c :: post → r.calls pre = .ok s → s.escapes c = false

/-! ### What the calls change -/

theorem fd_escape (r : Reactor) (m : FdMode) (fd cb u : Nat) :
    (r.fd m fd cb u).escape = false → ¬fd < FD_SETSIZE ∧ r.fd m fd cb u = r := by
  unfold Reactor.fd; split_ifs with h
  · intro he; cases he
  · exact fun _ => ⟨h, rfl⟩

@[simp] theorem fd_pipe (r : Reactor) (m : FdMode) (fd cb u : Nat) : (r.fd m fd cb u).pipe = r.pipe := by
  unfold Reactor.fd; split_ifs <;> rfl

@[simp] theorem fd_signals (r : Reactor) (m : FdMode) (fd cb u : Nat) : (r.fd m fd cb u).signals = r.signals := by
  unfold Reactor.fd; split_ifs <;> rfl

/-- A call that leaves `escape` clear found it clear, is not one that sets it, and changed no
registration, tripped set or signal. -/
theorem call_quiet {r r' : Reactor} {c : Call} (h : r.call c = .ok r') (he : r'.escape = false) :
    r.escape = false ∧ r.escapes c = false ∧
      (∀ m, (r'.modes m).fds = (r.modes m).fds ∧ (r'.modes m).tripped = (r.modes m).tripped) ∧
      r'.signals = r.signals := by
  cases c with
  | fd m fd cb u =>
    cases h
    obtain ⟨hfd, hr⟩ := fd_escape r m fd cb u he
    rw [hr] at he ⊢
    exact ⟨he, by simpa [escapes] using hfd, fun _ => ⟨rfl, rfl⟩, rfl⟩
  | fdCancel m fd =>
    simp only [call] at h
    cases hc : (r.modes m).cancel fd with
    | error e => rw [hc] at h; cases h
    | ok t => rw [hc] at h; cases h; cases he
  | fdEnable m fd =>
    cases h
    refine ⟨he, rfl, fun m' => ?_, rfl⟩
    by_cases hm : m' = m
    · subst hm; simp [setMode, Table.enable]
    · simp [setMode, Function.update_noteq hm]
  | fdDisable m fd => cases h; cases he
  | signal sig cb u rd wr =>
    simp only [call] at h
    split_ifs at h with h₁ h₂ <;> cases h
    · refine ⟨he, ?_, fun _ => ⟨rfl, rfl⟩, rfl⟩
      simpa [escapes, Option.isNone_iff_eq_none] using h₂
    all_goals cases he
  | signalCancel sig => cases h; cases he

/-- The calls of one callback that leave `escape` clear found it clear, made no call that sets it,
and changed no registration, tripped set or signal. -/
theorem calls_quiet : ∀ {cs : List Call} {r r' : Reactor}, r.calls cs = .ok r' → r'.escape = false →
    r.escape = false ∧ r.NoEscape cs ∧
      (∀ m, (r'.modes m).fds = (r.modes m).fds ∧ (r'.modes m).tripped = (r.modes m).tripped) ∧
      r'.signals = r.signals
  | [], _, _, h, he => by
    cases h
    refine ⟨he, fun pre c post s hcs _ => ?_, fun _ => ⟨rfl, rfl⟩, rfl⟩
    cases pre <;> cases hcs
  | c :: cs, r, r', h, he => by
    simp only [calls] at h
    cases hc : r.call c with
    | error e => rw [hc] at h; cases h
    | ok r₁ =>
      rw [hc] at h
      obtain ⟨h₁, h₂, h₃, h₄⟩ := calls_quiet h he
      obtain ⟨g₁, g₂, g₃, g₄⟩ := call_quiet hc h₁
      refine ⟨g₁, fun pre c' post s hcs hs => ?_,
        fun m => ⟨(h₃ m).1.trans (g₃ m).1, (h₃ m).2.trans (g₃ m).2⟩, h₄.trans g₄⟩
      cases pre with
      | nil => cases hcs; cases hs; exact g₂
      | cons c₀ pre =>
        cases hcs
        simp only [calls, hc, Except.bind] at hs
        exact h₂ pre c' post s rfl hs

end Reactor

/-! ### The dispatch pass -/

section Dispatch

variable {τ : Type}

/-- What the callback of registration `e`, called in mode `m`, does, given the user's state and the
reactor's: the user's state after, the calls it makes on the reactor in order, and its return
value. -/
abbrev Callbacks (τ : Type) := τ → Reactor → FdMode → Fd → τ × List Call × Int

/-- A callback called by the pass: for which registration, in which slot, the reactor as it was
just before, the calls the callback made on it, and the reactor they left. -/
structure Invoked where
  mode : FdMode
  index : Nat
  entry : Fd
  before : Reactor
  calls : List Call
  after : Reactor

/-- The state of a pass: the user's, the reactor's, the callbacks called so far, and the last return
value (a non-zero one ends `ev_run`). -/
structure Pass (τ : Type) where
  user : τ
  r : Reactor
  log : List Invoked
  ret : Int

/-- The inner loop `for(n = ...; n < nfds && !escape; ++n)` over mode `m`'s table, run at most
`fuel` times. -/
def scan (cb : Callbacks τ) (m : FdMode) : Nat → Nat → Pass τ → Except String (Pass τ)
  | 0, _, p => .ok p
  | fuel + 1, n, p =>
    if p.ret = 0 ∧ n < (p.r.modes m).fds.length ∧ p.r.escape = false then
      let e := (p.r.modes m).fds.getD n default
      if e.fd ∈ (p.r.modes m).tripped then
        let out := cb p.user p.r m e
        (p.r.calls out.2.1).bind fun r =>
          scan cb m fuel (n + 1) ⟨out.1, r, p.log ++ [⟨m, n, e, p.r, out.2.1, r⟩], out.2.2⟩
      else scan cb m fuel (n + 1) p
    else .ok p

/-- One turn of the outer loop `for(mode = ...; mode < ev_nmodes && !escape; ++mode)`: mode `m`'s
inner loop, given as many turns as its table has slots when it starts. -/
def dispatchMode (cb : Callbacks τ) (p : Pass τ) (m : FdMode) : Except String (Pass τ) :=
  if p.ret = 0 ∧ p.r.escape = false then scan cb m (p.r.modes m).fds.length 0 p else .ok p

/-- The dispatch pass: `escape` cleared, then the modes in order. -/
def dispatch (cb : Callbacks τ) (p : Pass τ) : Except String (Pass τ) :=
  FdMode.all.foldlM (dispatchMode cb) { p with r := { p.r with escape := false } }

/-- The inner loop's turns never run out before the loop ends: while `escape` is clear the table
keeps its length, so a turn more than the slots left changes nothing. -/
theorem scan_succ (cb : Callbacks τ) (m : FdMode) :
    ∀ fuel n (p : Pass τ), (p.r.escape = false → (p.r.modes m).fds.length ≤ n + fuel) →
      scan cb m (fuel + 1) n p = scan cb m fuel n p
  | 0, n, p, h => by
    conv_lhs => rw [scan]
    rw [if_neg]
    · rfl
    · rintro ⟨-, hn, he⟩; have := h he; omega
  | fuel + 1, n, p, h => by
    conv_lhs => rw [scan]
    conv_rhs => rw [scan]
    by_cases hc : p.ret = 0 ∧ n < (p.r.modes m).fds.length ∧ p.r.escape = false
    · simp only [if_pos hc]
      split
      · cases hcs : p.r.calls (cb p.user p.r m ((p.r.modes m).fds.getD n default)).2.1 with
        | error e => rfl
        | ok r =>
          simp only [Except.bind]
          refine scan_succ cb m fuel (n + 1) _ fun he => ?_
          have := ((Reactor.calls_quiet hcs he).2.2.1 m).1
          simp only [this]; have := h hc.2.2; omega
      · exact scan_succ cb m fuel (n + 1) p fun he => by have := h he; omega
    · simp only [if_neg hc]

/-- What a pass knows of a callback it called, against the reactor `r0` that `select` left: it was
for a tripped registration at its slot in `r0`'s tables, called while `escape` was clear, with
`r0`'s registrations, tripped sets and signals, and its calls led from the reactor before to the
one after. -/
structure Seen (r0 : Reactor) (x : Invoked) : Prop where
  index : x.index < (r0.modes x.mode).fds.length
  entry : x.entry = (r0.modes x.mode).fds.getD x.index default
  tripped : x.entry.fd ∈ (r0.modes x.mode).tripped
  escape : x.before.escape = false
  same : ∀ m, (x.before.modes m).fds = (r0.modes m).fds ∧ (x.before.modes m).tripped = (r0.modes m).tripped
  signals : x.before.signals = r0.signals
  calls : x.before.calls x.calls = .ok x.after

/-- What every state of a pass keeps of `r0`: while `escape` is clear, the registrations, the
tripped sets and the signals are `r0`'s; every callback called so far is `Seen`; the last one left
the reactor as it is, and every one before it left `escape` clear. -/
structure Sees (r0 : Reactor) (p : Pass τ) : Prop where
  same : p.r.escape = false →
    (∀ m, (p.r.modes m).fds = (r0.modes m).fds ∧ (p.r.modes m).tripped = (r0.modes m).tripped) ∧
      p.r.signals = r0.signals
  seen : ∀ x ∈ p.log, Seen r0 x
  last : ∀ x ∈ p.log.getLast?, x.after = p.r
  quiet : ∀ x ∈ p.log.dropLast, x.after.escape = false

/-- A callback called with `escape` clear: the one before it left `escape` clear, and the new
entry is the last. -/
theorem Sees.invoke {r0 : Reactor} {p : Pass τ} (hs : Sees r0 p) (hesc : p.r.escape = false) (u : τ)
    (x : Invoked) (ret : Int) (hx : Seen r0 x) (hb : x.before = p.r) :
    Sees r0 ⟨u, x.after, p.log ++ [x], ret⟩ := by
  refine ⟨fun he => ?_, ?_, by simp, ?_⟩
  · obtain ⟨-, -, h₂, h₃⟩ := Reactor.calls_quiet hx.calls he
    rw [hb] at h₂ h₃
    obtain ⟨hsame, hsig⟩ := hs.same hesc
    exact ⟨fun m => ⟨(h₂ m).1.trans (hsame m).1, (h₂ m).2.trans (hsame m).2⟩, h₃.trans hsig⟩
  · simpa [or_imp, forall_and] using ⟨hs.seen, hx⟩
  · rw [List.dropLast_concat]
    intro y hy
    cases hl : p.log.getLast? with
    | none => rw [List.getLast?_eq_none_iff.1 hl] at hy; cases hy
    | some z =>
      rw [← List.dropLast_append_getLast? z hl, List.mem_append, List.mem_singleton] at hy
      rcases hy with hy | rfl
      · exact hs.quiet y hy
      · rw [hs.last y hl, hesc]

theorem Sees.scan {r0 : Reactor} (cb : Callbacks τ) (m : FdMode) :
    ∀ fuel n {p p' : Pass τ}, Sees r0 p → scan cb m fuel n p = .ok p' → Sees r0 p'
  | 0, _, _, _, hs, h => by cases h; exact hs
  | fuel + 1, n, p, p', hs, h => by
    unfold Event.scan at h
    by_cases hc : p.ret = 0 ∧ n < (p.r.modes m).fds.length ∧ p.r.escape = false
    swap
    · rw [if_neg hc] at h; cases h; exact hs
    rw [if_pos hc] at h
    by_cases ht : ((p.r.modes m).fds.getD n default).fd ∈ (p.r.modes m).tripped
    swap
    · rw [if_neg ht] at h; exact Sees.scan cb m fuel (n + 1) hs h
    rw [if_pos ht] at h
    obtain ⟨hret, hn, hesc⟩ := hc
    obtain ⟨hsame, hsig⟩ := hs.same hesc
    cases hcs : p.r.calls (cb p.user p.r m ((p.r.modes m).fds.getD n default)).2.1 with
    | error e => simp only [hcs, Except.bind] at h; cases h
    | ok r =>
      simp only [hcs, Except.bind] at h
      refine Sees.scan cb m fuel (n + 1) (hs.invoke hesc _ ⟨m, n, _, p.r, _, r⟩ _ ?_ rfl) h
      refine ⟨?_, ?_, ?_, hesc, hsame, hsig, hcs⟩ <;> simp only [← (hsame m).1, ← (hsame m).2, hn, ht]

theorem Sees.dispatchMode {r0 : Reactor} (cb : Callbacks τ) (m : FdMode) {p p' : Pass τ} (hs : Sees r0 p)
    (h : dispatchMode cb p m = .ok p') : Sees r0 p' := by
  unfold Event.dispatchMode at h
  split_ifs at h
  · exact hs.scan cb m _ 0 h
  · cases h; exact hs

theorem Sees.foldlM {r0 : Reactor} (cb : Callbacks τ) :
    ∀ (ms : List FdMode) {p p' : Pass τ}, Sees r0 p → ms.foldlM (Event.dispatchMode cb) p = .ok p' → Sees r0 p'
  | [], _, _, hs, h => by cases h; exact hs
  | m :: ms, p, p', hs, h => by
    rw [List.foldlM_cons] at h
    cases hm : Event.dispatchMode cb p m with
    | error e => simp only [hm, bind, Except.bind] at h; cases h
    | ok q => simp only [hm, bind, Except.bind] at h; exact Sees.foldlM cb ms (hs.dispatchMode cb m hm) h

/-- Over every dispatch pass after `select` reported the descriptors `ready`, with any callbacks:
every callback called belongs to a registration at its slot in the tables as they were when
`select` returned, for a descriptor that was enabled when the tripped sets were copied and that
`select` reported ready, and it is called while `escape` is clear, the registrations, the tripped
sets and the signal table as they were; and no callback of the pass but the last made a call that
sets `escape` (an `ev_fd` that registers, an `ev_fd_cancel` or `ev_fd_disable`, an `ev_signal` that
registers, an `ev_signal_cancel`). -/
theorem dispatch_sees_select (cb : Callbacks τ) (u : τ) (r : Reactor) (ready : FdMode → Finset Nat)
    {p : Pass τ} (h : dispatch cb ⟨u, r.select ready, [], 0⟩ = .ok p) :
    (∀ x ∈ p.log, x.index < (r.modes x.mode).fds.length ∧
      x.entry = (r.modes x.mode).fds.getD x.index default ∧
      x.entry.fd ∈ (r.modes x.mode).enabled ∧ x.entry.fd ∈ ready x.mode ∧
      x.before.escape = false ∧
      (∀ m, (x.before.modes m).fds = (r.modes m).fds ∧
        (x.before.modes m).tripped = (r.modes m).enabled ∩ ready m) ∧
      x.before.signals = r.signals) ∧
    ∀ x ∈ p.log.dropLast, x.before.NoEscape x.calls := by
  have h0 : Sees (r.select ready) ⟨u, { r.select ready with escape := false }, [], 0⟩ :=
    ⟨fun _ => ⟨fun _ => ⟨rfl, rfl⟩, rfl⟩, by simp, by simp, by simp⟩
  have hs := Sees.foldlM cb FdMode.all h0 h
  refine ⟨fun x hx => ?_, fun x hx => ?_⟩
  · obtain ⟨h₁, h₂, h₃, h₄, h₅, h₆, -⟩ := hs.seen x hx
    simp only [Reactor.select, Finset.mem_inter] at h₁ h₂ h₃ h₅ h₆
    exact ⟨h₁, h₂, h₃.1, h₃.2, h₄, h₅, h₆⟩
  · exact (Reactor.calls_quiet (hs.seen x (List.dropLast_subset _ hx)).calls (hs.quiet x hx)).2.1

/-- Descriptors 3 and 5 registered and enabled for reading and both ready; the callback of 3
cancels 5, so the pass ends before 5's callback. -/
theorem dispatch_sees_select_cancel :
    ∃ r p, Reactor.new.calls [.fd .read 3 1 0, .fd .read 5 2 0, .fdEnable .read 3, .fdEnable .read 5] = .ok r ∧
      dispatch (fun _ _ _ e => ((), if e.fd = 3 then [Call.fdCancel .read 5] else [], 0) : Callbacks Unit)
        ⟨(), r.select fun _ => {3, 5}, [], 0⟩ = .ok p ∧ p.log.map (·.entry.fd) = [3] ∧
      (∀ x ∈ p.log, x.index < (r.modes x.mode).fds.length ∧
        x.entry = (r.modes x.mode).fds.getD x.index default ∧
        x.entry.fd ∈ (r.modes x.mode).enabled ∧ x.entry.fd ∈ ({3, 5} : Finset Nat) ∧
        x.before.escape = false ∧
        (∀ m, (x.before.modes m).fds = (r.modes m).fds ∧
          (x.before.modes m).tripped = (r.modes m).enabled ∩ {3, 5}) ∧
        x.before.signals = r.signals) ∧
      ∀ x ∈ p.log.dropLast, x.before.NoEscape x.calls :=
  Exists.imp (fun _ => Exists.imp fun _ (h : _ ∧ _ ∧ _) =>
    ⟨h.1, h.2.1, h.2.2, dispatch_sees_select _ () _ (fun _ => {3, 5}) h.2.1⟩) ⟨_, _, rfl, rfl, rfl⟩

end Dispatch

/-! ### Signals -/

section Signals

namespace Reactor

/-- `sighandler`, run by the kernel when signal `s` arrives: while the reactor's handler is
installed (from `ev_signal` to `ev_signal_cancel`), it writes the signal's number into the pipe. -/
def deliver (r : Reactor) (s : Nat) : Reactor :=
  if (r.signals s).isSome then { r with pipe := r.pipe ++ [s] } else r

/-- `signal_read`: read one number from the pipe (nothing when it is empty) and call that signal's
callback, unconditionally: `.error` stands for the call through a null pointer. The call made is
returned. -/
def signalRead (r : Reactor) : Except String (Reactor × Option (Nat × Nat × Nat)) :=
  match r.pipe with
  | [] => .ok (r, none)
  | s :: rest =>
    match r.signals s with
    | none => .error "call through a null callback"
    | some (cb, u) => .ok ({ r with pipe := rest }, some (s, cb, u))

/-- What happens to the signal machinery: a call from a callback, a signal arriving, or the
reactor reading the pipe. -/
inductive SigEvent where
  | call (c : Call)
  | deliver (s : Nat)
  | read
  deriving DecidableEq, Repr

def sigStep (r : Reactor) : SigEvent → Except String Reactor
  | .call c => r.call c
  | .deliver s => .ok (r.deliver s)
  | .read => (r.signalRead).map Prod.fst

def sigRun (r : Reactor) : List SigEvent → Except String Reactor
  | [] => .ok r
  | e :: es => (r.sigStep e).bind (sigRun · es)

/-- `signal_read` calls through a null callback exactly when the number it reads is that of a
signal with no callback. -/
theorem signalRead_null_iff (r : Reactor) :
    r.signalRead = .error "call through a null callback" ↔ ∃ s rest, r.pipe = s :: rest ∧ r.signals s = none := by
  unfold signalRead
  split
  · simp_all
  · rename_i s rest hp
    split <;> simp_all

/-- Whenever the number of signal `s` is the next one in the pipe, cancelling `s` leaves it there,
and the reactor's next read of the pipe calls through a null callback, whatever follows. -/
theorem cancel_then_read_calls_null (r : Reactor) {s : Nat} {rest : List Nat} (hp : r.pipe = s :: rest)
    (es : List SigEvent) :
    r.sigRun (.call (.signalCancel s) :: .read :: es) = .error "call through a null callback" := by
  have h : ({ r with signals := Function.update r.signals s none, escape := true } : Reactor).signalRead =
      .error "call through a null callback" := (signalRead_null_iff _).2 ⟨s, rest, hp, by simp⟩
  simp only [sigRun, sigStep, call, Except.bind, h, Except.map]

/-- Signal 2 registered and delivered, then cancelled before the reactor reads the pipe. -/
theorem cancel_then_read_calls_null_sigint :
    ∃ r, new.sigRun [.call (.signal 2 7 0 3 4), .deliver 2] = .ok r ∧ r.pipe = 2 :: [] ∧
      r.sigRun [.call (.signalCancel 2), .read] = .error "call through a null callback" :=
  Exists.imp (fun _ (h : _ ∧ _) => ⟨h.1, h.2, cancel_then_read_calls_null _ h.2 []⟩) ⟨_, rfl, rfl⟩

/-- Every number waiting in the pipe is that of a signal with a callback. -/
def PipeOk (r : Reactor) : Prop := ∀ s ∈ r.pipe, (r.signals s).isSome

/-- The calls fail only on an assertion. -/
theorem call_error {r : Reactor} {c : Call} {e : String} (h : r.call c = .error e) : e = "abort" := by
  cases c with
  | fdCancel m fd =>
    simp only [call] at h
    cases hc : (r.modes m).cancel fd with
    | error e' =>
      rw [hc] at h; cases h
      unfold Table.cancel at hc; dsimp only at hc
      split at hc <;> cases hc
      rfl
    | ok t => rw [hc] at h; cases h
  | signal sig cb u rd wr =>
    simp only [call] at h
    split_ifs at h
    cases h; rfl
  | _ => cases h

/-- A call other than `ev_signal_cancel` leaves the pipe alone and takes no callback away. -/
theorem call_keeps_callbacks {r r' : Reactor} {c : Call} (hc : ∀ s, c ≠ .signalCancel s) (h : r.call c = .ok r') :
    r'.pipe = r.pipe ∧ ∀ s, (r.signals s).isSome → (r'.signals s).isSome := by
  cases c with
  | fd m fd cb u => cases h; simp
  | fdCancel m fd =>
    simp only [call] at h
    cases hc' : (r.modes m).cancel fd with
    | error e => rw [hc'] at h; cases h
    | ok t => rw [hc'] at h; cases h; exact ⟨rfl, fun _ => id⟩
  | fdEnable m fd => cases h; exact ⟨rfl, fun _ => id⟩
  | fdDisable m fd => cases h; exact ⟨rfl, fun _ => id⟩
  | signal sig cb u rd wr =>
    simp only [call] at h
    split_ifs at h <;> cases h
    · exact ⟨rfl, fun _ => id⟩
    all_goals
      refine ⟨by simp, fun s hs => ?_⟩
      by_cases hsig : s = sig
      · subst hsig; simp
      · simpa [Function.update_noteq hsig] using hs
  | signalCancel sig => exact (hc sig rfl).elim

/-- Every event but `ev_signal_cancel` keeps `PipeOk`, and from `PipeOk` no read of the pipe calls
through a null callback. -/
theorem PipeOk.sigStep {r r' : Reactor} {e : SigEvent} (hp : r.PipeOk) (hc : ∀ s, e ≠ .call (.signalCancel s))
    (h : r.sigStep e = .ok r') : r'.PipeOk := by
  cases e with
  | call c =>
    obtain ⟨hpipe, hsig⟩ := call_keeps_callbacks (fun s hs => hc s (hs ▸ rfl)) h
    exact fun s hs => hsig s (hp s (hpipe ▸ hs))
  | deliver s =>
    cases h
    unfold Reactor.deliver
    split_ifs with hs
    · intro x hx
      rcases List.mem_append.1 hx with hx | hx
      · exact hp x hx
      · rw [List.mem_singleton.1 hx]; exact hs
    · exact hp
  | read =>
    simp only [Reactor.sigStep, signalRead] at h
    split at h
    · cases h; exact hp
    · rename_i s rest hpipe
      split at h
      · cases h
      · cases h
        exact fun x hx => hp x (by rw [hpipe]; exact List.mem_cons_of_mem _ hx)

theorem PipeOk.sigStep_ne_null {r : Reactor} {e : SigEvent} (hp : r.PipeOk) :
    r.sigStep e ≠ .error "call through a null callback" := by
  cases e with
  | call c =>
    intro h
    have := call_error h
    simp at this
  | deliver s => nofun
  | read =>
    intro h
    simp only [Reactor.sigStep] at h
    cases hr : r.signalRead with
    | ok x => rw [hr] at h; cases h
    | error e =>
      rw [hr] at h; cases h
      obtain ⟨s, rest, hpipe, hnone⟩ := (signalRead_null_iff r).1 hr
      have := hp s (by rw [hpipe]; exact List.mem_cons_self _ _)
      rw [hnone] at this; cases this

/-- Over every interleaving of signal deliveries, calls and reads of the pipe from `ev_new` with
no `ev_signal_cancel`, no read of the pipe calls through a null callback: the null call of
`cancel_then_read_calls_null` needs a cancel. -/
theorem null_call_needs_cancel :
    ∀ (es : List SigEvent) {r : Reactor}, r.PipeOk → (∀ s, SigEvent.call (.signalCancel s) ∉ es) →
      r.sigRun es ≠ .error "call through a null callback"
  | [], _, _, _ => nofun
  | e :: es, r, hp, hc => by
    simp only [sigRun]
    cases h : r.sigStep e with
    | error x => simpa [h, Except.bind] using hp.sigStep_ne_null (e := e)
    | ok r' =>
      have hne : ∀ s, e ≠ .call (.signalCancel s) := fun s he => hc s (he ▸ List.mem_cons_self _ _)
      exact null_call_needs_cancel es (hp.sigStep hne h) fun s hs => hc s (List.mem_cons_of_mem _ hs)

/-- Signal 2 registered, delivered and read, with no cancel. -/
theorem null_call_needs_cancel_sigint :
    new.PipeOk ∧ (∀ s, SigEvent.call (.signalCancel s) ∉ [.call (.signal 2 7 0 3 4), .deliver 2, .read]) ∧
      new.sigRun [.call (.signal 2 7 0 3 4), .deliver 2, .read] ≠ .error "call through a null callback" :=
  ⟨(fun _ hs => by cases hs), by simp, null_call_needs_cancel _ (fun _ hs => by cases hs) (by simp)⟩

end Reactor

end Signals

end Disorder.Event

import Disorder.Event.Fds
import Mathlib.Algebra.BigOperators.Group.Finset

/-! Child processes in lib/event.c: the table `ev->children`, which `ev_child` appends to and
`ev_child_cancel` shrinks by moving the last entry into the freed slot, and `sigchld_callback`, the
reactor's SIGCHLD callback. It makes passes over the table, calling `wait4` with `WNOHANG` on each
entry's pid. A report cancels the entry if the child exited or was killed, calls the entry's
callback with the pid and the status, and makes another pass follow; a failure other than
`ECHILD` returns -1 at once; the loop ends after a pass without a report.

`wait4` is a parameter: for each pid, the answers it gives next, finitely many, and what it
answers once they are used up (0, or a failure), never a report. Proved, over every table, every
such kernel on a finite pid type (`pid_t` has finitely many values) and all callbacks that return
0: `sigchld_callback` ends; each answer `wait4` gives for a pid is the next of that pid's, so each
status change is reported once, in order, and its report calls the callback once; the table it
leaves is the one it found with one cancel per report of an exit or a kill and the callbacks'
calls applied, in order; and it returns 0 only after a whole pass over that table in which `wait4`
reported nothing, or -1 straight after a failure other than `ECHILD`, the rest of the table not
visited. Its own `ev_child_cancel` always finds the pid it cancels, so it aborts only when a
callback cancels a pid that is not in the table. -/

namespace Disorder.Event

/-- `ECHILD`. -/
def ECHILD : Nat := 10

/-- glibc's `WIFEXITED` and `WIFSIGNALED`, on a raw wait status. -/
def WIFEXITED (status : Nat) : Bool := status % 128 == 0

def WIFSIGNALED (status : Nat) : Bool := status % 128 != 0 && status % 128 != 127

section Children

variable {τ Pid : Type} [DecidableEq Pid] [Inhabited Pid]

/-- A `struct child`: the pid, the options for `wait4`, the callback and its user data. -/
structure Child (Pid : Type) where
  pid : Pid
  options : Nat
  callback : Nat
  u : Nat
  deriving DecidableEq, Inhabited, Repr

/-- What one `wait4(pid, &status, options | WNOHANG, &ru)` returns: a status change of the child,
0, or -1 with an errno. -/
inductive Wait4 where
  | reported (status : Nat)
  | nothing
  | failed (errno : Nat)
  deriving DecidableEq, Repr

def Wait4.isReported : Wait4 → Bool
  | .reported _ => true
  | _ => false

/-- The kernel as `wait4` sees it: for each pid, the answers it gives next, in order, and what it
answers once they are used up: 0 (`none`) or a failure with an errno, never a status change. -/
structure Kernel (Pid : Type) where
  script : Pid → List Wait4
  idle : Pid → Option Nat

/-- The answer of a pid whose answers are used up. -/
def Kernel.idleAnswer (k : Kernel Pid) (pid : Pid) : Wait4 := (k.idle pid).elim .nothing .failed

/-- `wait4` on `pid`: its next answer, and the kernel after. -/
def Kernel.wait4 (k : Kernel Pid) (pid : Pid) : Wait4 × Kernel Pid :=
  match k.script pid with
  | w :: rest => (w, { k with script := Function.update k.script pid rest })
  | [] => (k.idleAnswer pid, k)

/-- The calls a child callback can make on the table: `ev_child` and `ev_child_cancel`. -/
inductive ChildCall (Pid : Type) where
  | child (pid : Pid) (options callback u : Nat)
  | childCancel (pid : Pid)
  deriving DecidableEq, Repr

/-- `ev_child`: the new entry in the next slot. -/
def evChild (cs : List (Child Pid)) (c : Child Pid) : List (Child Pid) := cs ++ [c]

/-- `ev_child_cancel`: the first entry for `pid` gets the last entry, and the table loses its last
slot; the pid must be in the table. -/
def evChildCancel (cs : List (Child Pid)) (pid : Pid) : Except String (List (Child Pid)) :=
  let n := cs.findIdx (fun c => c.pid = pid)
  if n < cs.length then
    .ok ((if n ≠ cs.length - 1 then cs.set n (cs.getD (cs.length - 1) default) else cs).take (cs.length - 1))
  else .error "abort"

def ChildCall.apply (cs : List (Child Pid)) : ChildCall Pid → Except String (List (Child Pid))
  | .child pid options callback u => .ok (evChild cs ⟨pid, options, callback, u⟩)
  | .childCancel pid => evChildCancel cs pid

/-- Calls on the table, in order. -/
def applyCalls (cs : List (Child Pid)) : List (ChildCall Pid) → Except String (List (Child Pid))
  | [] => .ok cs
  | c :: rest => (c.apply cs).bind (applyCalls · rest)

/-- What the callback of entry `c`, called with pid `r` and `status`, does, given the user's state
and the table: the user's state after, its calls on the table in order, and its return value. -/
abbrev ChildCallbacks (τ Pid : Type) := τ → List (Child Pid) → Child Pid → Pid → Nat → τ × List (ChildCall Pid) × Int

/-- One call of `wait4`: the entry it was for, the answer, and, after a report, the calls of the
entry's callback, called with the entry's pid and the reported status. -/
structure Visit (Pid : Type) where
  child : Child Pid
  answer : Wait4
  calls : List (ChildCall Pid)

/-- Whether the answer reports an exit or a kill. -/
def Visit.ended (v : Visit Pid) : Bool :=
  match v.answer with
  | .reported status => WIFEXITED status || WIFSIGNALED status
  | _ => false

/-- The visit's changes to the table, in order: the cancel of a child that ended, then the
callback's calls. -/
def Visit.ops (v : Visit Pid) : List (ChildCall Pid) :=
  (if v.ended then [.childCancel v.child.pid] else []) ++ v.calls

/-- The state of `sigchld_callback`: the user's, the table, the kernel, `n`, `revisit`, and the
visits so far. -/
structure Reaping (τ Pid : Type) where
  user : τ
  children : List (Child Pid)
  kernel : Kernel Pid
  n : Nat
  revisit : Bool
  log : List (Visit Pid)

/-- The state after a visit of slot `n`: a report sets `revisit`. -/
def Reaping.after (st : Reaping τ Pid) (v : Visit Pid) (u : τ) (cs : List (Child Pid)) (k : Kernel Pid) :
    Reaping τ Pid :=
  { st with user := u, children := cs, kernel := k, n := st.n + 1, revisit := st.revisit || v.answer.isReported,
            log := st.log ++ [v] }

/-- What one turn of the loops leads to: the next state, or the return with its value. -/
inductive Turn (τ Pid : Type) where
  | next (st : Reaping τ Pid)
  | ret (v : Int) (st : Reaping τ Pid)

/-- One turn of `do { revisit = 0; for(n = 0; n < nchildren; ++n) ... } while(revisit)`: the end of
a pass, or the visit of slot `n`. -/
def turn (cb : ChildCallbacks τ Pid) (st : Reaping τ Pid) : Except String (Turn τ Pid) :=
  match st.children[st.n]? with
  | none => .ok (if st.revisit then .next { st with n := 0, revisit := false } else .ret 0 st)
  | some c =>
    let w := st.kernel.wait4 c.pid
    match w.1 with
    | .reported status =>
      ((if WIFEXITED status || WIFSIGNALED status then evChildCancel st.children c.pid else .ok st.children).bind
        fun cs =>
          let out := cb st.user cs c c.pid status
          (applyCalls cs out.2.1).map fun cs' =>
            let st' := st.after ⟨c, w.1, out.2.1⟩ out.1 cs' w.2
            if out.2.2 ≠ 0 then .ret out.2.2 st' else .next st')
    | .nothing => .ok (.next (st.after ⟨c, w.1, []⟩ st.user st.children w.2))
    | .failed e =>
      let st' := st.after ⟨c, w.1, []⟩ st.user st.children w.2
      .ok (if e ≠ ECHILD then .ret (-1) st' else .next st')

/-- The loops, given `fuel` turns. -/
def run (cb : ChildCallbacks τ Pid) : Nat → Reaping τ Pid → Option (Except String (Int × Reaping τ Pid))
  | 0, _ => none
  | fuel + 1, st =>
    match turn cb st with
    | .error e => some (.error e)
    | .ok (.ret v st') => some (.ok (v, st'))
    | .ok (.next st') => run cb fuel st'

/-- `sigchld_callback`, given `fuel` turns of its loops. -/
def sigchldCallback (cb : ChildCallbacks τ Pid) (fuel : Nat) (u : τ) (cs : List (Child Pid)) (k : Kernel Pid) :
    Option (Except String (Int × Reaping τ Pid)) :=
  run cb fuel ⟨u, cs, k, 0, false, []⟩

/-! ### The table -/

/-- The registrations that `ops` leave from `m`, as a multiset: `ev_child` adds one and
`ev_child_cancel` of a pid takes away one registration of it. -/
inductive ChildRegisters : Multiset (Child Pid) → List (ChildCall Pid) → Multiset (Child Pid) → Prop
  | nil (m : Multiset (Child Pid)) : ChildRegisters m [] m
  | child {m m' : Multiset (Child Pid)} {pid : Pid} {options callback u : Nat} {ops : List (ChildCall Pid)} :
      ChildRegisters (m + {⟨pid, options, callback, u⟩}) ops m' →
      ChildRegisters m (.child pid options callback u :: ops) m'
  | cancel {m m' : Multiset (Child Pid)} {e : Child Pid} {ops : List (ChildCall Pid)} : e ∈ m →
      ChildRegisters (m.erase e) ops m' → ChildRegisters m (.childCancel e.pid :: ops) m'

omit [Inhabited Pid] in
theorem ChildRegisters.append {m₁ m₂ m₃ : Multiset (Child Pid)} {a b : List (ChildCall Pid)}
    (h : ChildRegisters m₁ a m₂) (h' : ChildRegisters m₂ b m₃) : ChildRegisters m₁ (a ++ b) m₃ := by
  induction h with
  | nil => exact h'
  | child _ ih => exact .child (ih h')
  | cancel he _ ih => exact .cancel he (ih h')

/-- `ev_child_cancel` succeeds on a pid in the table only, and then takes away one entry for it. -/
theorem evChildCancel_spec {cs cs' : List (Child Pid)} {pid : Pid} (h : evChildCancel cs pid = .ok cs') :
    ∃ e ∈ cs, e.pid = pid ∧ cs.Perm (e :: cs') := by
  unfold evChildCancel at h
  dsimp only at h
  by_cases hn : cs.findIdx (fun c => decide (c.pid = pid)) < cs.length
  swap
  · rw [if_neg hn] at h; cases h
  rw [if_pos hn] at h
  cases h
  obtain ⟨hx, hp⟩ := findIdx_swap_drop_perm cs _ hn
  exact ⟨_, List.getElem_mem _, by simpa using hx, hp⟩

/-- `ev_child_cancel` of the pid of an entry in the table succeeds. -/
theorem evChildCancel_ok {cs : List (Child Pid)} {c : Child Pid} (hc : c ∈ cs) :
    ∃ cs', evChildCancel cs c.pid = .ok cs' := by
  have : cs.findIdx (fun e => decide (e.pid = c.pid)) < cs.length :=
    List.findIdx_lt_length_of_exists ⟨c, hc, by simp⟩
  exact ⟨_, by unfold evChildCancel; exact if_pos this⟩

theorem applyCalls_registers :
    ∀ {calls : List (ChildCall Pid)} {cs cs' : List (Child Pid)}, applyCalls cs calls = .ok cs' →
      ChildRegisters ↑cs calls ↑cs'
  | [], _, _, h => by cases h; exact .nil _
  | c :: rest, cs, cs', h => by
    simp only [applyCalls] at h
    cases hc : c.apply cs with
    | error e => rw [hc] at h; cases h
    | ok cs₁ =>
      rw [hc] at h
      have hr := applyCalls_registers h
      cases c with
      | child pid o cb u => cases hc; exact .child (by simpa [evChild] using hr)
      | childCancel pid =>
        obtain ⟨e, he, rfl, hp⟩ := evChildCancel_spec hc
        refine .cancel (Multiset.mem_coe.2 he) ?_
        rwa [Multiset.coe_erase, Multiset.coe_eq_coe.2 (List.erase_cons_head e cs₁ ▸ hp.erase e)]

/-! ### One turn -/

omit [DecidableEq Pid] [Inhabited Pid] in
theorem Kernel.idleAnswer_isReported (k : Kernel Pid) (pid : Pid) : (k.idleAnswer pid).isReported = false := by
  unfold idleAnswer; cases k.idle pid <;> rfl

omit [Inhabited Pid] in
/-- `wait4` takes the pid's next answer, or gives the idle answer and leaves the kernel as it was. -/
theorem Kernel.wait4_cases (k : Kernel Pid) (pid : Pid) :
    (∃ rest, k.script pid = (k.wait4 pid).1 :: rest ∧
      (k.wait4 pid).2 = { k with script := Function.update k.script pid rest }) ∨
    (k.script pid = [] ∧ k.wait4 pid = (k.idleAnswer pid, k)) := by
  unfold wait4; split <;> simp_all

/-- Everything one turn can do. At the end of a pass: another pass after a report, or the return of
0. Otherwise the visit of slot `n`: `wait4` answers for the entry's pid, the table gets the visit's
changes (none without a report), and the turn returns -1 after a failure other than `ECHILD`, or
what the callback returned if it is not 0. -/
theorem turn_cases {cb : ChildCallbacks τ Pid} {st : Reaping τ Pid} {t : Turn τ Pid} (h : turn cb st = .ok t) :
    (st.children.length ≤ st.n ∧
      (st.revisit = true ∧ t = .next { st with n := 0, revisit := false } ∨ st.revisit = false ∧ t = .ret 0 st)) ∨
    ∃ c v u cs, st.children[st.n]? = some c ∧ v.child = c ∧ v.answer = (st.kernel.wait4 c.pid).1 ∧
      applyCalls st.children v.ops = .ok cs ∧ (v.answer.isReported = false → v.calls = [] ∧ u = st.user) ∧
      (∀ s, v.answer = .reported s → ∃ cs₀, v.calls = (cb st.user cs₀ c c.pid s).2.1 ∧
        u = (cb st.user cs₀ c c.pid s).1) ∧
      (t = .next (st.after v u cs (st.kernel.wait4 c.pid).2) ∨
        ∃ r, t = .ret r (st.after v u cs (st.kernel.wait4 c.pid).2) ∧
          ((∃ e, v.answer = .failed e ∧ e ≠ ECHILD ∧ r = -1) ∨
            ∃ cs₀ s, v.answer = .reported s ∧ r = (cb st.user cs₀ c c.pid s).2.2 ∧ r ≠ 0)) := by
  unfold turn at h
  cases hc : st.children[st.n]? with
  | none =>
    rw [hc] at h
    refine .inl ⟨List.getElem?_eq_none_iff.1 hc, ?_⟩
    cases hr : st.revisit <;> simp only [hr, if_true, if_false, Bool.false_eq_true] at h <;> cases h <;> simp
  | some c =>
    rw [hc] at h
    refine .inr ⟨c, ?_⟩
    dsimp only at h
    generalize st.kernel.wait4 c.pid = w at h ⊢
    obtain ⟨a, k⟩ := w
    cases a with
    | reported s =>
      dsimp only at h
      cases hcan : (if WIFEXITED s || WIFSIGNALED s then evChildCancel st.children c.pid else .ok st.children) with
      | error e => rw [hcan] at h; cases h
      | ok cs₀ =>
        rw [hcan] at h
        cases hcalls : applyCalls cs₀ (cb st.user cs₀ c c.pid s).2.1 with
        | error e => simp only [Except.bind, hcalls, Except.map] at h; cases h
        | ok cs' =>
          simp only [Except.bind, hcalls, Except.map] at h
          refine ⟨⟨c, .reported s, (cb st.user cs₀ c c.pid s).2.1⟩, (cb st.user cs₀ c c.pid s).1, cs', rfl, rfl, rfl, ?_,
            nofun, fun _ h => by cases h; exact ⟨cs₀, rfl, rfl⟩, ?_⟩
          · by_cases he : (WIFEXITED s || WIFSIGNALED s) = true
            · rw [if_pos he] at hcan
              simp [Visit.ops, Visit.ended, he, applyCalls, ChildCall.apply, hcan, hcalls, Except.bind]
            · rw [if_neg he] at hcan
              cases hcan
              simpa [Visit.ops, Visit.ended, he] using hcalls
          · by_cases hr : (cb st.user cs₀ c c.pid s).2.2 ≠ 0
            · rw [if_pos hr] at h; cases h
              exact .inr ⟨_, rfl, .inr ⟨cs₀, s, rfl, rfl, hr⟩⟩
            · rw [if_neg hr] at h; cases h
              exact .inl rfl
    | nothing =>
      cases h
      exact ⟨⟨c, .nothing, []⟩, st.user, st.children, rfl, rfl, rfl, by simp [Visit.ops, Visit.ended, applyCalls],
        fun _ => ⟨rfl, rfl⟩, nofun, .inl rfl⟩
    | failed e =>
      refine ⟨⟨c, .failed e, []⟩, st.user, st.children, rfl, rfl, rfl, by simp [Visit.ops, Visit.ended, applyCalls],
        fun _ => ⟨rfl, rfl⟩, nofun, ?_⟩
      dsimp only at h
      by_cases he : e ≠ ECHILD
      · rw [if_pos he] at h; cases h; exact .inr ⟨_, rfl, .inl ⟨e, rfl, he, rfl⟩⟩
      · rw [if_neg he] at h; cases h; exact .inl rfl

/-- `sigchld_callback`'s own `ev_child_cancel` always finds the pid it cancels, moved entries and
all: a turn aborts only when a callback's calls do (by cancelling a pid that is not in the table). -/
theorem turn_error {cb : ChildCallbacks τ Pid} {st : Reaping τ Pid} {e : String} (h : turn cb st = .error e) :
    ∃ c s cs₀, st.children[st.n]? = some c ∧ (st.kernel.wait4 c.pid).1 = .reported s ∧
      applyCalls cs₀ (cb st.user cs₀ c c.pid s).2.1 = .error e := by
  unfold turn at h
  cases hc : st.children[st.n]? with
  | none => rw [hc] at h; split_ifs at h
  | some c =>
    rw [hc] at h
    dsimp only at h
    cases hw : (st.kernel.wait4 c.pid).1 with
    | nothing => rw [hw] at h; cases h
    | failed x => rw [hw] at h; dsimp only at h; split_ifs at h
    | reported s =>
      rw [hw] at h
      dsimp only at h
      obtain ⟨cs₀, hcan⟩ : ∃ cs₀, (if WIFEXITED s || WIFSIGNALED s then evChildCancel st.children c.pid
          else .ok st.children) = .ok cs₀ := by
        split_ifs
        · exact evChildCancel_ok (List.getElem?_mem hc)
        · exact ⟨_, rfl⟩
      rw [hcan] at h
      cases hcalls : applyCalls cs₀ (cb st.user cs₀ c c.pid s).2.1 with
      | error e' => simp only [Except.bind, hcalls, Except.map] at h; cases h; exact ⟨c, s, cs₀, rfl, hw, hcalls⟩
      | ok cs' => simp only [Except.bind, hcalls, Except.map] at h; cases h

/-- Child 3 exits, and its callback cancels child 4, which is not in the table. -/
theorem turn_error_unknown_pid :
    ∃ (cb : ChildCallbacks Unit (Fin 8)) (st : Reaping Unit (Fin 8)),
      cb = (fun _ _ _ _ _ => ((), [.childCancel 4], 0)) ∧
      st = ⟨(), [⟨3, 0, 1, 0⟩], ⟨fun p => if p = 3 then [.reported 0] else [], fun _ => none⟩, 0, false, []⟩ ∧
      turn cb st = .error "abort" ∧
      ∃ c s cs₀, st.children[st.n]? = some c ∧ (st.kernel.wait4 c.pid).1 = .reported s ∧
        applyCalls cs₀ (cb st.user cs₀ c c.pid s).2.1 = .error "abort" :=
  ⟨_, _, rfl, rfl, rfl, @turn_error Unit (Fin 8) _ _ (fun _ _ _ _ _ => ((), [.childCancel 4], 0))
    ⟨(), [⟨3, 0, 1, 0⟩], ⟨fun p => if p = 3 then [.reported 0] else [], fun _ => none⟩, 0, false, []⟩ _ rfl⟩

omit [DecidableEq Pid] [Inhabited Pid] in
theorem Visit.ops_of_not_reported {v : Visit Pid} (hr : v.answer.isReported = false) (hc : v.calls = []) :
    v.ops = [] := by
  obtain ⟨c, a, calls⟩ := v
  cases a <;> simp_all [ops, ended, Wait4.isReported]

/-- What a turn leads to. -/
def Turn.state : Turn τ Pid → Reaping τ Pid
  | .next st => st
  | .ret _ st => st

/-- A turn adds at most its visit to the log, and the table gets the visit's changes. -/
theorem turn_log {cb : ChildCallbacks τ Pid} {st : Reaping τ Pid} {t : Turn τ Pid} (h : turn cb st = .ok t) :
    ∃ new, t.state.log = st.log ++ new ∧ ChildRegisters ↑st.children (new.flatMap Visit.ops) ↑t.state.children := by
  rcases turn_cases h with ⟨-, ⟨-, rfl⟩ | ⟨-, rfl⟩⟩ | ⟨c, v, u, cs, -, -, -, hcs, -, -, rfl | ⟨r, rfl, -⟩⟩
  · exact ⟨[], by simp [Turn.state], .nil _⟩
  · exact ⟨[], by simp [Turn.state], .nil _⟩
  all_goals exact ⟨[v], rfl, by simpa using applyCalls_registers hcs⟩

/-! ### Termination -/

section Termination

variable [Fintype Pid]

/-- How many answers the kernel has yet to give before its pids' idle answers. -/
def Kernel.pending (k : Kernel Pid) : Nat := ∑ p, (k.script p).length

omit [Inhabited Pid] in
theorem Kernel.pending_update {k : Kernel Pid} {pid : Pid} {w : Wait4} {rest : List Wait4}
    (h : k.script pid = w :: rest) :
    ({ k with script := Function.update k.script pid rest } : Kernel Pid).pending + 1 = k.pending := by
  unfold pending
  have hu : (fun p => (Function.update k.script pid rest p).length) =
      Function.update (fun p => (k.script p).length) pid rest.length := by
    funext p; by_cases hp : p = pid
    · subst hp; simp
    · simp [Function.update_noteq hp]
  rw [hu, Finset.sum_update_of_mem (Finset.mem_univ pid),
    Finset.sum_eq_add_sum_diff_singleton (Finset.mem_univ pid) (fun p => (k.script p).length), h]
  simp only [List.length_cons]; omega

/-- The potential of the loops: twice the pending answers, plus one while a report asks for another
pass; then the slots left in the pass. -/
def Reaping.potential (st : Reaping τ Pid) : Nat × Nat :=
  (2 * st.kernel.pending + st.revisit.toNat, st.children.length - st.n)

/-- Every turn that goes on lowers the potential. -/
theorem turn_potential {cb : ChildCallbacks τ Pid} {st st' : Reaping τ Pid} (h : turn cb st = .ok (.next st')) :
    Prod.Lex (· < ·) (· < ·) st'.potential st.potential := by
  rcases turn_cases h with ⟨-, ⟨hr, ht⟩ | ⟨-, ht⟩⟩ | ⟨c, v, u, cs, hc, -, hv, hcs, hq, -, ht | ⟨r, ht, -⟩⟩
  · cases ht
    exact .left _ _ (by simp [Reaping.potential, hr])
  · cases ht
  · cases ht
    rcases Kernel.wait4_cases st.kernel c.pid with ⟨rest, hs, hk⟩ | ⟨-, hk⟩
    · have hp := Kernel.pending_update hs
      rw [← hk] at hp
      have hb := Bool.toNat_le (st.revisit || v.answer.isReported)
      exact .left _ _ (by simp only [Reaping.potential, Reaping.after]; omega)
    · have hi : v.answer.isReported = false := by rw [hv, hk]; exact Kernel.idleAnswer_isReported _ _
      obtain ⟨hcalls, -⟩ := hq hi
      rw [Visit.ops_of_not_reported hi hcalls] at hcs
      cases hcs
      have hn := (List.getElem?_eq_some_iff.1 hc).1
      simp only [Reaping.potential, Reaping.after, hk, hi, Bool.or_false]
      exact .right _ (by omega)
  · cases ht

end Termination

/-- `sigchld_callback`'s loops end: from every state, some number of turns reaches a return (or an
abort). -/
theorem run_ends [Fintype Pid] (cb : ChildCallbacks τ Pid) (st : Reaping τ Pid) : ∃ fuel r, run cb fuel st = some r := by
  cases h : turn cb st with
  | error e => exact ⟨1, .error e, by simp only [run, h]⟩
  | ok t =>
    cases t with
    | ret v st' => exact ⟨1, .ok (v, st'), by simp only [run, h]⟩
    | next st' =>
      obtain ⟨fuel, r, hr⟩ := run_ends cb st'
      exact ⟨fuel + 1, r, by simp only [run, h, hr]⟩
termination_by st.potential
decreasing_by exact turn_potential h

/-- More turns than a run needs change nothing. -/
theorem run_add {cb : ChildCallbacks τ Pid} :
    ∀ {fuel : Nat} {st : Reaping τ Pid} {r}, run cb fuel st = some r → ∀ d, run cb (fuel + d) st = some r
  | 0, _, _, h, _ => by cases h
  | fuel + 1, st, r, h, d => by
    rw [show fuel + 1 + d = fuel + d + 1 by omega]
    cases ht : turn cb st with
    | error e => simpa only [run, ht] using h
    | ok t =>
      cases t with
      | ret v st' => simpa only [run, ht] using h
      | next st' => simp only [run, ht] at h ⊢; exact run_add h d

/-! ### Runs -/

/-- What a turn that goes on keeps, a run keeps: the state a run returns in is left by a last turn
from a state that has it. -/
theorem run_last {cb : ChildCallbacks τ Pid} (I : Reaping τ Pid → Prop)
    (hI : ∀ {st st'}, I st → turn cb st = .ok (.next st') → I st') :
    ∀ {fuel st v st'}, I st → run cb fuel st = some (.ok (v, st')) → ∃ st₀, I st₀ ∧ turn cb st₀ = .ok (.ret v st')
  | 0, _, _, _, _, h => by cases h
  | fuel + 1, st, v, st', hi, h => by
    cases ht : turn cb st with
    | error e => simp only [run, ht] at h; cases h
    | ok t =>
      cases t with
      | ret v' st'' => simp only [run, ht] at h; cases h; exact ⟨st, hi, ht⟩
      | next st'' => simp only [run, ht] at h; exact run_last I hI (hI hi ht) h

/-- The answers the visits so far got for `pid`, in order. -/
def Reaping.answers (st : Reaping τ Pid) (pid : Pid) : List Wait4 :=
  (st.log.filter (fun v => v.child.pid = pid)).map Visit.answer

omit [Inhabited Pid] in
theorem Reaping.answers_after (st : Reaping τ Pid) (v : Visit Pid) (u : τ) (cs : List (Child Pid))
    (k : Kernel Pid) (pid : Pid) :
    (st.after v u cs k).answers pid = st.answers pid ++ if v.child.pid = pid then [v.answer] else [] := by
  by_cases hp : v.child.pid = pid <;> simp [answers, after, List.filter_append, hp]

/-- What holds at every state of a run from table `cs` and kernel `k`: every pid's answers so far
are its next answers in order, then its idle answer only; and the table is `cs` with the visits'
changes applied. -/
structure Traced (cs : List (Child Pid)) (k : Kernel Pid) (st : Reaping τ Pid) : Prop where
  idle : st.kernel.idle = k.idle
  answers : ∀ pid, ∃ used idles, st.answers pid = used ++ idles ∧ used ++ st.kernel.script pid = k.script pid ∧
    (∀ w ∈ idles, w = k.idleAnswer pid) ∧ (idles ≠ [] → st.kernel.script pid = [])
  registers : ChildRegisters ↑cs (st.log.flatMap Visit.ops) ↑st.children

/-- While no report has asked for another pass, the pass has visited the first `n` slots of the
table and `wait4` reported nothing there. -/
def QuietPass (st : Reaping τ Pid) : Prop :=
  st.revisit = false → st.n ≤ st.children.length ∧ ∃ pre last, st.log = pre ++ last ∧
    last.map Visit.child = st.children.take st.n ∧ ∀ v ∈ last, v.answer.isReported = false

/-- The callbacks that the visits `log` invoked, from the user's state `u₀` to `u`: a visit whose
`wait4` reported a status called its entry's callback with the entry's pid and that status (on the
table of the moment), and made that call's `ev_child` and `ev_child_cancel` calls; a visit without a
report called nothing. -/
inductive Invocations (cb : ChildCallbacks τ Pid) (u₀ : τ) : List (Visit Pid) → τ → Prop
  | nil : Invocations cb u₀ [] u₀
  | reported {log : List (Visit Pid)} {u : τ} {v : Visit Pid} {s : Nat} (cs₀ : List (Child Pid)) :
      Invocations cb u₀ log u → v.answer = .reported s → v.calls = (cb u cs₀ v.child v.child.pid s).2.1 →
      Invocations cb u₀ (log ++ [v]) (cb u cs₀ v.child v.child.pid s).1
  | quiet {log : List (Visit Pid)} {u : τ} {v : Visit Pid} :
      Invocations cb u₀ log u → v.answer.isReported = false → v.calls = [] → Invocations cb u₀ (log ++ [v]) u

section Invariants

variable {cb : ChildCallbacks τ Pid} {st st' : Reaping τ Pid} {cs : List (Child Pid)} {k : Kernel Pid}

omit [Inhabited Pid] in
theorem Traced.start (u : τ) : Traced cs k ⟨u, cs, k, 0, false, []⟩ :=
  ⟨rfl, fun _ => ⟨[], [], rfl, rfl, nofun, fun h => (h rfl).elim⟩, .nil _⟩

omit [DecidableEq Pid] [Inhabited Pid] in
theorem QuietPass.start (u : τ) : QuietPass (⟨u, cs, k, 0, false, []⟩ : Reaping τ Pid) :=
  fun _ => ⟨Nat.zero_le _, [], [], rfl, rfl, nofun⟩

theorem Traced.turn {t : Turn τ Pid} (hs : Traced cs k st) (h : turn cb st = .ok t) : Traced cs k t.state := by
  obtain ⟨new, hlog, hreg⟩ := turn_log h
  have registers : ChildRegisters ↑cs (t.state.log.flatMap Visit.ops) ↑t.state.children := by
    rw [hlog, List.flatMap_append]; exact hs.registers.append hreg
  rcases turn_cases h with ⟨-, ⟨-, rfl⟩ | ⟨-, rfl⟩⟩ | ⟨c, v, u, cs', -, hc, hv, -, -, -, ht⟩
  · exact ⟨hs.idle, hs.answers, registers⟩
  · exact hs
  have hst : t.state = st.after v u cs' (st.kernel.wait4 c.pid).2 := by
    rcases ht with rfl | ⟨r, rfl, -⟩ <;> rfl
  have hidle : st.kernel.idleAnswer c.pid = k.idleAnswer c.pid := by simp only [Kernel.idleAnswer, hs.idle]
  rw [hst] at registers ⊢
  refine ⟨?_, fun p => ?_, registers⟩
  · rcases Kernel.wait4_cases st.kernel c.pid with ⟨rest, -, hk⟩ | ⟨-, hk⟩ <;>
      simp only [Reaping.after, hk, hs.idle]
  obtain ⟨used, idles, ha, hu, hi, he⟩ := hs.answers p
  rw [Reaping.answers_after, hc]
  by_cases hp : c.pid = p
  · subst hp
    rw [if_pos rfl]
    rcases Kernel.wait4_cases st.kernel c.pid with ⟨rest, hs', hk⟩ | ⟨hs', hk⟩
    · have hnil : idles = [] := by
        by_contra hne; rw [he hne] at hs'; cases hs'
      subst hnil
      refine ⟨used ++ [v.answer], [], by simp [ha], ?_, nofun, fun h => (h rfl).elim⟩
      simp [Reaping.after, hk, ← hu, hs', hv]
    · refine ⟨used, idles ++ [v.answer], by simp [ha], by simpa [Reaping.after, hk] using hu, ?_,
        fun _ => by simpa [Reaping.after, hk] using hs'⟩
      intro w hw
      rcases List.mem_append.1 hw with hw | hw
      · exact hi w hw
      · rw [List.mem_singleton.1 hw, hv, hk, hidle]
  · rw [if_neg hp, List.append_nil]
    have hsc : (st.kernel.wait4 c.pid).2.script p = st.kernel.script p := by
      rcases Kernel.wait4_cases st.kernel c.pid with ⟨rest, -, hk⟩ | ⟨-, hk⟩ <;>
        simp [hk, Function.update_noteq (Ne.symm hp)]
    exact ⟨used, idles, ha, by simpa [Reaping.after, hsc] using hu, hi, by simpa [Reaping.after, hsc] using he⟩

theorem QuietPass.next (hq : QuietPass st) (h : turn cb st = .ok (.next st')) : QuietPass st' := by
  rcases turn_cases h with ⟨-, ⟨-, ht⟩ | ⟨-, ht⟩⟩ | ⟨c, v, u, cs', hc, hvc, -, hcs, hr, -, ht | ⟨r, ht, -⟩⟩
  · cases ht; exact fun _ => ⟨Nat.zero_le _, st.log, [], by simp, by simp, nofun⟩
  · cases ht
  · cases ht
    intro hq'
    simp only [Reaping.after, Bool.or_eq_false_iff] at hq'
    obtain ⟨hq', hi⟩ := hq'
    obtain ⟨hcalls, -⟩ := hr hi
    rw [Visit.ops_of_not_reported hi hcalls] at hcs
    cases hcs
    obtain ⟨-, pre, last, hlog, hmap, hall⟩ := hq hq'
    have hn := (List.getElem?_eq_some_iff.1 hc).1
    refine ⟨hn, pre, last ++ [v], by simp [Reaping.after, hlog], ?_, ?_⟩
    · simp [Reaping.after, hmap, hvc, List.take_succ, hc]
    · simpa [or_imp, forall_and] using ⟨hall, hi⟩
  · cases ht

theorem Invocations.turn {u₀ : τ} {t : Turn τ Pid} (hi : Invocations cb u₀ st.log st.user) (h : turn cb st = .ok t) :
    Invocations cb u₀ t.state.log t.state.user := by
  rcases turn_cases h with ⟨-, ⟨-, rfl⟩ | ⟨-, rfl⟩⟩ | ⟨c, v, u, cs', -, hvc, -, -, hq, hrep, ht⟩
  · exact hi
  · exact hi
  have hst : t.state = st.after v u cs' (st.kernel.wait4 c.pid).2 := by
    rcases ht with rfl | ⟨r, rfl, -⟩ <;> rfl
  rw [hst]
  subst hvc
  cases hv : v.answer with
  | reported s =>
    obtain ⟨cs₀, hcalls, rfl⟩ := hrep s hv
    exact .reported cs₀ hi hv hcalls
  | nothing | failed _ =>
    have hn : v.answer.isReported = false := by rw [hv]; rfl
    obtain ⟨hcalls, rfl⟩ := hq hn
    exact .quiet hi hn hcalls

/-- How a run with callbacks that return 0 ends: 0 after a whole pass over the table in which
`wait4` reported nothing, or -1 straight after a failure other than `ECHILD`. -/
theorem turn_ret (hret : ∀ u cs c pid status, (cb u cs c pid status).2.2 = 0) (hq : QuietPass st) {v : Int}
    (h : turn cb st = .ok (.ret v st')) :
    (v = 0 ∧ ∃ pre last, st'.log = pre ++ last ∧ last.map Visit.child = st'.children ∧
      ∀ x ∈ last, x.answer.isReported = false) ∨
    (v = -1 ∧ ∃ x e, st'.log.getLast? = some x ∧ x.answer = .failed e ∧ e ≠ ECHILD) := by
  rcases turn_cases h with ⟨hlen, ⟨-, ht⟩ | ⟨hr, ht⟩⟩ | ⟨c, x, u, cs', -, -, -, -, -, -, ht | ⟨r, ht, hend⟩⟩
  · cases ht
  · cases ht
    obtain ⟨hn, pre, last, hlog, hmap, hall⟩ := hq hr
    refine .inl ⟨rfl, pre, last, hlog, ?_, hall⟩
    rw [hmap, List.take_of_length_le hlen]
  · cases ht
  · cases ht
    rcases hend with ⟨e, hx, he, rfl⟩ | ⟨cs₀, s, -, rfl, hr⟩
    · exact .inr ⟨rfl, x, e, by simp [Reaping.after], hx, he⟩
    · exact (hr (hret _ _ _ _ _)).elim

end Invariants

/-! ### `sigchld_callback` -/

/-- What `sigchld_callback`, called on table `cs` with kernel `k`, has done when it returns `v` in
state `st`. Every pid's answers were its next answers, in order, then its idle answer only: each
status change is reported once. Each report called the callback of the entry visited, with its pid
and the status, and the user's state is the one those calls left, in order, from `u`. The table is
`cs` with the visits' changes applied in order: one cancel per report of an exit or a kill, and the
callbacks' `ev_child` and `ev_child_cancel` calls. And it returned 0 after a whole pass over the
table in which `wait4` reported nothing, or -1 straight after a failure other than `ECHILD`. -/
structure Reaped (cb : ChildCallbacks τ Pid) (u : τ) (cs : List (Child Pid)) (k : Kernel Pid) (v : Int)
    (st : Reaping τ Pid) : Prop where
  answers : ∀ pid, ∃ used idles, st.answers pid = used ++ idles ∧ used ++ st.kernel.script pid = k.script pid ∧
    ∀ w ∈ idles, w = k.idleAnswer pid
  invoked : Invocations cb u st.log st.user
  registers : ChildRegisters ↑cs (st.log.flatMap Visit.ops) ↑st.children
  ending : (v = 0 ∧ ∃ pre last, st.log = pre ++ last ∧ last.map Visit.child = st.children ∧
      ∀ x ∈ last, x.answer.isReported = false) ∨
    (v = -1 ∧ ∃ x e, st.log.getLast? = some x ∧ x.answer = .failed e ∧ e ≠ ECHILD)

/-- Over every table, every kernel whose pids have finitely many answers to give, on a finite pid
type, and all callbacks that return 0: `sigchld_callback` returns, the same result for every
number of turns past some bound, and what it returns is `Reaped`. -/
theorem sigchld_reaps_or_fails [Fintype Pid] (cb : ChildCallbacks τ Pid)
    (hret : ∀ u cs c pid status, (cb u cs c pid status).2.2 = 0) (u : τ) (cs : List (Child Pid)) (k : Kernel Pid) :
    (∃ r fuel₀, ∀ fuel, fuel₀ ≤ fuel → sigchldCallback cb fuel u cs k = some r) ∧
    ∀ fuel v st, sigchldCallback cb fuel u cs k = some (.ok (v, st)) → Reaped cb u cs k v st := by
  refine ⟨?_, fun fuel v st h => ?_⟩
  · obtain ⟨fuel₀, r, hr⟩ := run_ends cb ⟨u, cs, k, 0, false, []⟩
    exact ⟨r, fuel₀, fun fuel hf => by
      rw [sigchldCallback, ← Nat.add_sub_cancel' hf]; exact run_add hr _⟩
  obtain ⟨st₀, ⟨ht, hi, hq⟩, hlast⟩ := run_last (fun st => Traced cs k st ∧ Invocations cb u st.log st.user ∧ QuietPass st)
    (fun ⟨ht, hi, hq⟩ h => ⟨ht.turn h, hi.turn h, hq.next h⟩) ⟨Traced.start u, .nil, QuietPass.start u⟩ h
  have hs := ht.turn hlast
  exact ⟨fun p => (hs.answers p).imp fun _ => .imp fun _ ⟨h₁, h₂, h₃, _⟩ => ⟨h₁, h₂, h₃⟩, hi.turn hlast,
    hs.registers, turn_ret hret hq hlast⟩

/-- Children 3 and 5 exit; 3's callback registers child 6. Cancelling 3 moves 5 into slot 0, which
the first pass has passed, so the second pass reports it; a third pass finds nothing. -/
theorem sigchld_reaps_or_fails_swap :
    ∃ st, sigchldCallback (fun _ _ c _ _ => ((), if c.callback = 1 then [.child 6 0 3 0] else [], 0) :
          ChildCallbacks Unit (Fin 8)) 8 () [⟨3, 0, 1, 0⟩, ⟨5, 0, 2, 0⟩]
          ⟨fun p => if p = 3 ∨ p = 5 then [.reported 0] else [], fun _ => none⟩ = some (.ok (0, st)) ∧
      st.log.map (·.child.pid) = [3, 6, 5, 6] ∧ st.children = [⟨6, 0, 3, 0⟩] ∧
      Reaped (fun _ _ c _ _ => ((), if c.callback = 1 then [.child 6 0 3 0] else [], 0)) ()
        [⟨3, 0, 1, 0⟩, ⟨5, 0, 2, 0⟩] ⟨fun p => if p = 3 ∨ p = 5 then [.reported 0] else [], fun _ => none⟩ 0 st :=
  Exists.imp (fun st (h : _ ∧ _ ∧ _) =>
      ⟨h.1, h.2.1, h.2.2, (sigchld_reaps_or_fails _ (fun _ _ _ _ _ => rfl) () _ _).2 8 0 st h.1⟩) ⟨_, rfl, rfl, rfl⟩

/-- A failure other than `ECHILD` for child 5 (`EINVAL`) returns -1 before child 6, whose exit is
waiting, is visited: no pass over the whole table. -/
theorem sigchld_returns_before_full_pass :
    ∃ st, sigchldCallback (fun _ _ _ _ _ => ((), [], 0) : ChildCallbacks Unit (Fin 8)) 3 ()
          [⟨5, 0, 1, 0⟩, ⟨6, 0, 2, 0⟩]
          ⟨fun p => if p = 5 then [.failed 22] else if p = 6 then [.reported 0] else [], fun _ => none⟩ =
        some (.ok (-1, st)) ∧
      st.log.map Visit.child = [⟨5, 0, 1, 0⟩] ∧ st.children = [⟨5, 0, 1, 0⟩, ⟨6, 0, 2, 0⟩] :=
  ⟨_, rfl, rfl, rfl⟩

end Children

end Disorder.Event

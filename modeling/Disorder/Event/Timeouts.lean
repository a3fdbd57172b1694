import Mathlib.Data.List.Sort
import Mathlib.Data.List.GetD

/-! The timeouts of the event loop of lib/event.c. `ev_timeout` puts a new timeout into the heap
and `ev_timeout_cancel` only marks it inactive: it stays in the heap until it is due. Each iteration
of `ev_run` reads the clock once, takes every due timeout out of the heap, keeps the active ones in
a list, and only then calls them, in that order; a callback that returns non-zero ends `ev_run`.
Callbacks may register and cancel timeouts, and so may anything that runs between two timeout
phases. Over every run: a timeout's callback is called at most once, never in an iteration that
began before it was due, and never in the iteration whose timeout phase registered it; a cancel
keeps it from being called unless the cancel comes from a callback of the phase that has already
taken it into its list, for `ev_run` does not look at `active` again before the call.

The heap of lib/heap.h is not in the repository: it is a list in order of `when`, a new timeout
going after those due at the same time. Times are `struct timeval`s in microseconds. A handle is
a timeout's index among all that were registered (none is ever freed); a handle past them is the
null handle. The log and each timeout's `born` (the iterations begun when it was registered) are
observations, not state of the C code. -/

namespace Disorder.Event

/-- A `struct timeout`: when it is due and whether it is still active. -/
structure Timeout where
  when : Int
  active : Bool
  born : Nat
  deriving DecidableEq, Repr, Inhabited

/-- What a run is seen to do: a timeout's callback called at the time read at the start of the
`iteration`-th iteration, and `ev_timeout_cancel` on a timeout while `iteration` had begun. -/
inductive TimeoutObs where
  | call (h : Nat) (now : Int) (iteration : Nat)
  | cancel (h : Nat) (iteration : Nat)
  deriving DecidableEq, Repr

/-- The timeout a call is for. -/
def TimeoutObs.called : TimeoutObs → Option Nat
  | .call h _ _ => some h
  | .cancel _ _ => none

/-- The timeouts of an `ev_source`: every timeout registered, the heap's handles, and the
iterations of `ev_run` begun. -/
structure Timeouts where
  table : List Timeout
  heap : List Nat
  iterations : Nat
  log : List TimeoutObs
  deriving DecidableEq, Repr

/-- What code may do to the timeouts: `ev_timeout` (a null `when` is time 0) or
`ev_timeout_cancel`. -/
inductive TimeoutOp where
  | register (when : Option Int)
  | cancel (h : Nat)
  deriving DecidableEq, Repr

/-- What a timeout's callback does when it is called: its calls on the timeouts, and what it
returns. -/
structure Callback where
  ops : List TimeoutOp
  ret : Int

namespace Timeouts

/-- An event loop fresh from `ev_new`. -/
def empty : Timeouts := ⟨[], [], 0, []⟩

/-- The timeout a handle names. -/
def timeout (s : Timeouts) (h : Nat) : Timeout := s.table.getD h default

/-- `ev_timeout`: a new active timeout, into the heap after every one due no later. -/
def register (s : Timeouts) (when : Option Int) : Timeouts :=
  let table := s.table ++ [⟨when.getD 0, true, s.iterations⟩]
  let due (h : Nat) : Int := (table.getD h default).when
  ⟨table, s.heap.orderedInsert (fun a b => due a < due b) s.table.length, s.iterations, s.log⟩

/-- `ev_timeout_cancel`: mark the timeout inactive; the null handle does nothing. -/
def cancel (s : Timeouts) (h : Nat) : Timeouts :=
  if h < s.table.length then
    { s with table := s.table.set h { s.timeout h with active := false },
             log := s.log ++ [.cancel h s.iterations] }
  else s

def apply (s : Timeouts) : TimeoutOp → Timeouts
  | .register when => s.register when
  | .cancel h => s.cancel h

/-- The second half of the timeout phase: call each timeout of the list in turn. -/
def runCallbacks (now : Int) (cb : Nat → Callback) : List Nat → Timeouts → Except Int Timeouts
  | [], s => .ok s
  | h :: hs, s =>
    let s := (cb h).ops.foldl apply { s with log := s.log ++ [.call h now s.iterations] }
    if (cb h).ret ≠ 0 then .error (cb h).ret else runCallbacks now cb hs s

/-- Whether a timeout is due at `now`. -/
def due (s : Timeouts) (now : Int) (h : Nat) : Bool := (s.timeout h).when ≤ now

/-- The list the first half of the timeout phase builds: the due timeouts, in the order they
leave the heap, that are still active. -/
def snapshot (s : Timeouts) (now : Int) : List Nat :=
  (s.heap.takeWhile (s.due now)).filter fun h => (s.timeout h).active

/-- The timeout phase of an iteration of `ev_run` that read the time `now`. -/
def iteration (now : Int) (cb : Nat → Callback) (s : Timeouts) : Except Int Timeouts :=
  runCallbacks now cb (s.snapshot now)
    { s with heap := s.heap.dropWhile (s.due now), iterations := s.iterations + 1 }

end Timeouts

/-- What can happen next: a call made outside the timeout phase (by a descriptor's callback, or
before `ev_run`), or the timeout phase of an iteration, with what each callback does. -/
inductive TimeoutEvent where
  | op (o : TimeoutOp)
  | iteration (now : Int) (cb : Nat → Callback)

namespace Timeouts

def step (s : Timeouts) : TimeoutEvent → Except Int Timeouts
  | .op o => .ok (s.apply o)
  | .iteration now cb => iteration now cb s

/-- A run of events, ending where `ev_run` returns. -/
def run : Timeouts → List TimeoutEvent → Except Int Timeouts
  | s, [] => .ok s
  | s, e :: es => (step s e).bind (run · es)

/-! ### Registering and cancelling -/

variable {s : Timeouts} {w : Option Int} {h x : Nat}

theorem timeout_of_le (hx : s.table.length ≤ x) : s.timeout x = default :=
  List.getD_eq_default _ _ hx

@[simp] theorem register_length : (s.register w).table.length = s.table.length + 1 := by
  simp [register]

@[simp] theorem register_iterations : (s.register w).iterations = s.iterations := rfl
@[simp] theorem register_log : (s.register w).log = s.log := rfl

theorem timeout_register_ne (hx : x ≠ s.table.length) : (s.register w).timeout x = s.timeout x := by
  rcases Nat.lt_or_gt_of_ne hx with hx | hx
  · exact List.getD_append _ _ _ _ hx
  · rw [timeout_of_le (by simp; omega), timeout_of_le hx.le]

@[simp] theorem timeout_register_self :
    (s.register w).timeout s.table.length = ⟨w.getD 0, true, s.iterations⟩ := by
  simp [register, timeout, List.getD_append_right]

theorem mem_register_heap : x ∈ (s.register w).heap ↔ x = s.table.length ∨ x ∈ s.heap :=
  List.mem_orderedInsert _

theorem register_heap_perm : (s.register w).heap.Perm (s.table.length :: s.heap) :=
  List.perm_orderedInsert _ _ _

@[simp] theorem cancel_length : (s.cancel h).table.length = s.table.length := by
  unfold cancel; split_ifs <;> simp

@[simp] theorem cancel_iterations : (s.cancel h).iterations = s.iterations := by
  unfold cancel; split_ifs <;> rfl

@[simp] theorem cancel_heap : (s.cancel h).heap = s.heap := by
  unfold cancel; split_ifs <;> rfl

theorem cancel_log : (s.cancel h).log = s.log ++ if h < s.table.length then [.cancel h s.iterations] else [] := by
  unfold cancel; split_ifs <;> simp

/-- A cancel calls nothing. -/
theorem cancel_called : (s.cancel h).log.filterMap TimeoutObs.called = s.log.filterMap TimeoutObs.called := by
  rw [cancel_log, List.filterMap_append]; split_ifs <;> exact List.append_nil _

/-- A cancel clears the `active` flag of the timeout it names, and changes nothing else. -/
theorem timeout_cancel_self : (s.cancel h).timeout h = { s.timeout h with active := false } := by
  unfold cancel; split_ifs with hh
  · simp [timeout, List.getD_eq_getElem?_getD, List.getElem?_set, hh]
  · rw [timeout_of_le (Nat.le_of_not_lt hh)]; rfl

theorem timeout_cancel_ne (hx : x ≠ h) : (s.cancel h).timeout x = s.timeout x := by
  unfold cancel; split_ifs
  · simp [timeout, List.getD_eq_getElem?_getD, List.getElem?_set, Ne.symm hx]
  · rfl

@[simp] theorem when_cancel : ((s.cancel h).timeout x).when = (s.timeout x).when := by
  by_cases hx : x = h
  · subst hx; rw [timeout_cancel_self]
  · rw [timeout_cancel_ne hx]

@[simp] theorem born_cancel : ((s.cancel h).timeout x).born = (s.timeout x).born := by
  by_cases hx : x = h
  · subst hx; rw [timeout_cancel_self]
  · rw [timeout_cancel_ne hx]

theorem active_of_cancel (ha : ((s.cancel h).timeout x).active) : (s.timeout x).active := by
  by_cases hx : x = h
  · subst hx; rw [timeout_cancel_self] at ha; cases ha
  · rwa [timeout_cancel_ne hx] at ha

/-! ### What every reachable state satisfies -/

/-- The invariant: the heap holds distinct registered timeouts; a timeout called is never back in
the heap nor called again, was due and registered before its iteration began; a cancelled timeout
is inactive; and a cancel logged before a call of the same timeout was made in the call's
iteration. -/
structure Inv (s : Timeouts) : Prop where
  heap_lt : ∀ h ∈ s.heap, h < s.table.length
  heap_nodup : s.heap.Nodup
  born_le : ∀ h, (s.timeout h).born ≤ s.iterations
  called_lt : ∀ h ∈ s.log.filterMap TimeoutObs.called, h < s.table.length
  called_nodup : (s.log.filterMap TimeoutObs.called).Nodup
  called_not_heap : ∀ h ∈ s.log.filterMap TimeoutObs.called, h ∉ s.heap
  on_time : ∀ h now k, .call h now k ∈ s.log → (s.timeout h).when ≤ now
  after_birth : ∀ h now k, .call h now k ∈ s.log → (s.timeout h).born < k
  cancel_lt : ∀ h k, .cancel h k ∈ s.log → h < s.table.length
  cancelled : ∀ h k, .cancel h k ∈ s.log → (s.timeout h).active = false
  cancel_then_call : ∀ pre post h now k, s.log = pre ++ .call h now k :: post →
    ∀ k', .cancel h k' ∈ pre → k' = k

/-- The timeout phase with `rest` still to call: each of them is a distinct registered timeout,
out of the heap, not yet called, due, registered before the iteration began, and cancelled, if
at all, only during this phase. -/
structure Phase (s : Timeouts) (now : Int) (rest : List Nat) extends Inv s : Prop where
  rest_nodup : rest.Nodup
  rest_lt : ∀ h ∈ rest, h < s.table.length
  rest_not_heap : ∀ h ∈ rest, h ∉ s.heap
  rest_not_called : ∀ h ∈ rest, h ∉ s.log.filterMap TimeoutObs.called
  rest_due : ∀ h ∈ rest, (s.timeout h).when ≤ now
  rest_born : ∀ h ∈ rest, (s.timeout h).born < s.iterations
  rest_cancel : ∀ h ∈ rest, ∀ k, .cancel h k ∈ s.log → k = s.iterations

theorem mem_called {l : List TimeoutObs} {now : Int} {k : Nat} (hm : .call h now k ∈ l) :
    h ∈ l.filterMap TimeoutObs.called :=
  List.mem_filterMap.2 ⟨_, hm, rfl⟩

/-- A split of a log that grew by one entry: at the new entry, or inside the old log. -/
theorem split_concat {α : Type} {l pre post : List α} {a b : α} (h : l ++ [a] = pre ++ b :: post) :
    (pre = l ∧ b = a) ∨ ∃ post', l = pre ++ b :: post' := by
  rcases List.eq_nil_or_concat post with rfl | ⟨post', c, rfl⟩
  · obtain ⟨h₁, h₂⟩ := List.append_inj' h rfl
    exact .inl ⟨h₁.symm, (List.singleton_inj.1 h₂).symm⟩
  · rw [List.concat_eq_append, ← List.cons_append, ← List.append_assoc] at h
    exact .inr ⟨post', (List.append_inj' h rfl).1⟩

theorem register_inv (hi : s.Inv) : (s.register w).Inv := by
  have hne : ∀ y < s.table.length, y ≠ s.table.length := fun _ hy => hy.ne
  refine ⟨fun y hy => ?_, ?_, fun y => ?_, fun y hy => ?_, hi.called_nodup, fun y hy hh => ?_,
    fun y now k hm => ?_, fun y now k hm => ?_, fun y k hm => ?_, fun y k hm => ?_, hi.cancel_then_call⟩
  · rcases mem_register_heap.1 hy with rfl | hy
    exacts [by simp, by simp; have := hi.heap_lt y hy; omega]
  · exact register_heap_perm.nodup_iff.2 (List.nodup_cons.2 ⟨fun hn => lt_irrefl _ (hi.heap_lt _ hn), hi.heap_nodup⟩)
  · by_cases hy : y = s.table.length
    · subst hy; simp
    · rw [timeout_register_ne hy]; exact hi.born_le y
  · simp only [register_length]; have := hi.called_lt y hy; omega
  · rcases mem_register_heap.1 hh with rfl | hh
    exacts [lt_irrefl _ (hi.called_lt _ hy), hi.called_not_heap y hy hh]
  · rw [timeout_register_ne (hne _ (hi.called_lt y (mem_called hm)))]; exact hi.on_time y now k hm
  · rw [timeout_register_ne (hne _ (hi.called_lt y (mem_called hm)))]; exact hi.after_birth y now k hm
  · simp only [register_length]; have := hi.cancel_lt y k hm; omega
  · rw [timeout_register_ne (hne _ (hi.cancel_lt y k hm))]; exact hi.cancelled y k hm

theorem cancel_inv (hi : s.Inv) : (s.cancel h).Inv := by
  by_cases hh : h < s.table.length
  swap
  · rw [cancel, if_neg hh]; exact hi
  have hlog : (s.cancel h).log = s.log ++ [.cancel h s.iterations] := by rw [cancel_log, if_pos hh]
  have hcall : ∀ {y now k}, .call y now k ∈ (s.cancel h).log → .call y now k ∈ s.log := by
    intro y now k hm
    rw [hlog, List.mem_append, List.mem_singleton] at hm
    exact hm.resolve_right fun h => by cases h
  refine ⟨by rw [cancel_heap, cancel_length]; exact hi.heap_lt, by rw [cancel_heap]; exact hi.heap_nodup,
    fun y => by rw [born_cancel, cancel_iterations]; exact hi.born_le y,
    by rw [cancel_called, cancel_length]; exact hi.called_lt, by rw [cancel_called]; exact hi.called_nodup,
    by rw [cancel_called, cancel_heap]; exact hi.called_not_heap,
    fun y now k hm => by rw [when_cancel]; exact hi.on_time y now k (hcall hm),
    fun y now k hm => by rw [born_cancel]; exact hi.after_birth y now k (hcall hm), fun y k hm => ?_,
    fun y k hm => ?_, fun pre post y now k hs k' hk => ?_⟩
  · rw [hlog, List.mem_append, List.mem_singleton] at hm
    rw [cancel_length]
    rcases hm with hm | ⟨rfl, -⟩
    exacts [hi.cancel_lt y k hm, hh]
  · rw [hlog, List.mem_append, List.mem_singleton] at hm
    rcases hm with hm | ⟨rfl, -⟩
    · have := hi.cancelled y k hm
      cases ha : ((s.cancel h).timeout y).active
      · rfl
      · rw [active_of_cancel ha] at this; cases this
    · rw [timeout_cancel_self]
  · rw [hlog] at hs
    rcases split_concat hs with ⟨-, hb⟩ | ⟨post', hs⟩
    · cases hb
    · exact hi.cancel_then_call pre post' y now k hs k' hk

theorem apply_inv (hi : s.Inv) : ∀ o, (s.apply o).Inv
  | .register _ => register_inv hi
  | .cancel _ => cancel_inv hi

theorem register_phase {now : Int} {rest : List Nat} (hp : s.Phase now rest) :
    (s.register w).Phase now rest := by
  have hne : ∀ y ∈ rest, y ≠ s.table.length := fun y hy => (hp.rest_lt y hy).ne
  refine ⟨register_inv hp.toInv, hp.rest_nodup, fun y hy => ?_, fun y hy hh => ?_, hp.rest_not_called,
    fun y hy => ?_, fun y hy => ?_, hp.rest_cancel⟩
  · simp only [register_length]; have := hp.rest_lt y hy; omega
  · rcases mem_register_heap.1 hh with h' | hh
    exacts [hne y hy h', hp.rest_not_heap y hy hh]
  · rw [timeout_register_ne (hne y hy)]; exact hp.rest_due y hy
  · rw [timeout_register_ne (hne y hy), register_iterations]; exact hp.rest_born y hy

theorem cancel_phase {now : Int} {rest : List Nat} (hp : s.Phase now rest) :
    (s.cancel h).Phase now rest := by
  refine ⟨cancel_inv hp.toInv, hp.rest_nodup, fun y hy => by rw [cancel_length]; exact hp.rest_lt y hy,
    fun y hy => by rw [cancel_heap]; exact hp.rest_not_heap y hy,
    fun y hy => by rw [cancel_called]; exact hp.rest_not_called y hy,
    fun y hy => by rw [when_cancel]; exact hp.rest_due y hy,
    fun y hy => by rw [born_cancel, cancel_iterations]; exact hp.rest_born y hy, fun y hy k hk => ?_⟩
  rw [cancel_iterations]
  rw [cancel_log] at hk
  split_ifs at hk
  · rw [List.mem_append, List.mem_singleton] at hk
    rcases hk with hk | ⟨-, rfl⟩
    exacts [hp.rest_cancel y hy k hk, rfl]
  · exact hp.rest_cancel y hy k (by rwa [List.append_nil] at hk)

theorem foldl_apply_phase {now : Int} {rest : List Nat} :
    ∀ (ops : List TimeoutOp) {s : Timeouts}, s.Phase now rest → (ops.foldl apply s).Phase now rest
  | [], _, hp => hp
  | .register _ :: ops, _, hp => foldl_apply_phase ops (register_phase hp)
  | .cancel _ :: ops, _, hp => foldl_apply_phase ops (cancel_phase hp)

/-- Calling the next timeout of the list. -/
theorem call_phase {now : Int} {rest : List Nat} (hp : s.Phase now (h :: rest)) :
    { s with log := s.log ++ [TimeoutObs.call h now s.iterations] }.Phase now rest := by
  have hh := List.mem_cons_self h rest
  have hnd := List.nodup_cons.1 hp.rest_nodup
  have hcalled : (s.log ++ [TimeoutObs.call h now s.iterations]).filterMap TimeoutObs.called =
      s.log.filterMap TimeoutObs.called ++ [h] := by simp [TimeoutObs.called]
  have hlog : ∀ {y now' k}, TimeoutObs.call y now' k ∈ s.log ++ [.call h now s.iterations] →
      .call y now' k ∈ s.log ∨ (y = h ∧ now' = now ∧ k = s.iterations) := by
    intro y now' k hm; simpa using hm
  refine ⟨⟨hp.heap_lt, hp.heap_nodup, hp.born_le, ?_, ?_, ?_, fun y now' k hm => ?_, fun y now' k hm => ?_,
    fun y k hm => hp.cancel_lt y k (by simpa using hm), fun y k hm => hp.cancelled y k (by simpa using hm), ?_⟩,
    hnd.2, fun y hy => hp.rest_lt y (List.mem_cons_of_mem h hy),
    fun y hy => hp.rest_not_heap y (List.mem_cons_of_mem h hy), ?_,
    fun y hy => hp.rest_due y (List.mem_cons_of_mem h hy), fun y hy => hp.rest_born y (List.mem_cons_of_mem h hy),
    fun y hy k hk => hp.rest_cancel y (List.mem_cons_of_mem h hy) k (by simpa using hk)⟩
  · rw [hcalled]; intro y hy
    rcases List.mem_append.1 hy with hy | hy
    exacts [hp.called_lt y hy, (List.mem_singleton.1 hy) ▸ hp.rest_lt h hh]
  · rw [hcalled]
    exact List.nodup_append.2 ⟨hp.called_nodup, List.nodup_singleton _,
      List.disjoint_singleton.2 (hp.rest_not_called h hh)⟩
  · rw [hcalled]; intro y hy
    rcases List.mem_append.1 hy with hy | hy
    exacts [hp.called_not_heap y hy, (List.mem_singleton.1 hy) ▸ hp.rest_not_heap h hh]
  · rcases hlog hm with hm | ⟨rfl, rfl, -⟩
    exacts [hp.on_time y now' k hm, hp.rest_due y hh]
  · rcases hlog hm with hm | ⟨rfl, -, rfl⟩
    exacts [hp.after_birth y now' k hm, hp.rest_born y hh]
  · intro pre post y now' k hs k' hk
    rcases split_concat hs with ⟨rfl, hb⟩ | ⟨post', hs⟩
    · cases hb; exact hp.rest_cancel _ hh k' hk
    · exact hp.cancel_then_call pre post' y now' k hs k' hk
  · intro y hy
    have := hp.rest_not_called y (List.mem_cons_of_mem h hy)
    rw [hcalled, List.mem_append, not_or, List.mem_singleton]
    exact ⟨this, fun he => hnd.1 (he ▸ hy)⟩

theorem runCallbacks_inv {now : Int} {cb : Nat → Callback} :
    ∀ (rest : List Nat) {s s' : Timeouts}, s.Phase now rest → runCallbacks now cb rest s = .ok s' → s'.Inv
  | [], _, _, hp, h => by cases h; exact hp.toInv
  | y :: rest, _, _, hp, h => by
    rw [runCallbacks] at h
    split_ifs at h
    exact runCallbacks_inv rest (foldl_apply_phase _ (call_phase hp)) h

/-- The first half of the timeout phase: the list taken out of the heap. -/
theorem start_phase (hi : s.Inv) (now : Int) :
    { s with heap := s.heap.dropWhile (s.due now), iterations := s.iterations + 1 }.Phase now
      (s.snapshot now) := by
  have hsplit := List.takeWhile_append_dropWhile (s.due now) s.heap
  have hdisj := List.disjoint_of_nodup_append (hsplit ▸ hi.heap_nodup)
  have hsub : ∀ y ∈ s.snapshot now, y ∈ s.heap.takeWhile (s.due now) ∧ (s.timeout y).active :=
    fun y hy => by simpa using List.mem_filter.1 hy
  have hheap : ∀ y ∈ s.snapshot now, y ∈ s.heap := fun y hy =>
    (List.takeWhile_sublist _).subset (hsub y hy).1
  refine ⟨⟨fun y hy => hi.heap_lt y ((List.dropWhile_sublist _).subset hy),
    hi.heap_nodup.sublist (List.dropWhile_sublist _), fun y => Nat.le_succ_of_le (hi.born_le y),
    hi.called_lt, hi.called_nodup,
    fun y hy hh => hi.called_not_heap y hy ((List.dropWhile_sublist _).subset hh),
    hi.on_time, fun y now k hm => hi.after_birth y now k hm, hi.cancel_lt, hi.cancelled, hi.cancel_then_call⟩,
    hi.heap_nodup.sublist ((List.filter_sublist _).trans (List.takeWhile_sublist _)),
    fun y hy => hi.heap_lt y (hheap y hy), fun y hy hh => hdisj (hsub y hy).1 hh,
    fun y hy hc => hi.called_not_heap y hc (hheap y hy),
    fun y hy => by simpa [due] using List.mem_takeWhile_imp (hsub y hy).1,
    fun y hy => Nat.lt_succ_of_le (hi.born_le y), fun y hy k hk => ?_⟩
  have := hi.cancelled y k hk
  rw [(hsub y hy).2] at this; cases this

theorem iteration_inv (hi : s.Inv) {now : Int} {cb : Nat → Callback} {s' : Timeouts}
    (h : iteration now cb s = .ok s') : s'.Inv :=
  runCallbacks_inv _ (start_phase hi now) h

theorem empty_inv : empty.Inv :=
  ⟨by simp [empty], List.nodup_nil, fun _ => le_rfl, by simp [empty], List.nodup_nil,
    by simp [empty], by simp [empty], by simp [empty], by simp [empty], by simp [empty],
    fun pre post _ _ _ h => by simp [empty] at h⟩

theorem step_inv (hi : s.Inv) : ∀ e {s' : Timeouts}, step s e = .ok s' → s'.Inv
  | .op o, _, h => by cases h; exact apply_inv hi o
  | .iteration _ _, _, h => iteration_inv hi h

theorem run_inv : ∀ (evs : List TimeoutEvent) {s s' : Timeouts}, s.Inv → run s evs = .ok s' → s'.Inv
  | [], _, _, hi, h => by cases h; exact hi
  | e :: es, s, _, hi, h => by
    rw [run] at h
    cases hs : step s e with
    | error r => rw [hs] at h; cases h
    | ok s₁ => rw [hs] at h; exact run_inv es (step_inv hi e hs) h

/-! ### Over a run -/

/-- A timeout's callback is called at most once, in an iteration that read a time no earlier than
its `when` and that began after it was registered. -/
theorem timeout_called_once_when_due {evs : List TimeoutEvent} {s : Timeouts} (h : run empty evs = .ok s) :
    (s.log.filterMap TimeoutObs.called).Nodup ∧
      ∀ x now k, .call x now k ∈ s.log → (s.timeout x).when ≤ now ∧ (s.timeout x).born < k :=
  have hi := run_inv evs empty_inv h
  ⟨hi.called_nodup, fun x now k hm => ⟨hi.on_time x now k hm, hi.after_birth x now k hm⟩⟩

/-- Two timeouts, due at 1 and 3, and an iteration at time 2: only the first is called. -/
theorem timeout_called_once_when_due_one :
    ∃ s, run empty [.op (.register (some 1)), .op (.register (some 3)), .iteration 2 fun _ => ⟨[], 0⟩] = .ok s ∧
      s.log = [.call 0 2 1] ∧ ((s.log.filterMap TimeoutObs.called).Nodup ∧
        ∀ x now k, .call x now k ∈ s.log → (s.timeout x).when ≤ now ∧ (s.timeout x).born < k) :=
  Exists.imp (fun _ (h : _ ∧ _) => ⟨h.1, h.2, timeout_called_once_when_due h.1⟩) ⟨_, rfl, rfl⟩

/-- A cancel logged before a call of the same timeout was made in the call's own iteration, by a
callback of its timeout phase: a cancel made before an iteration begins keeps the timeout from
being called in it and in every later one. -/
theorem cancel_then_call_same_iteration {evs : List TimeoutEvent} {s : Timeouts} (h : run empty evs = .ok s)
    {pre post : List TimeoutObs} {x k k' : Nat} {now : Int} (hs : s.log = pre ++ .call x now k :: post)
    (hc : .cancel x k' ∈ pre) : k' = k :=
  (run_inv evs empty_inv h).cancel_then_call pre post x now k hs k' hc

/-- The first of two timeouts due at time 2 cancels the second: the cancel and the call are both
in the first iteration. -/
theorem cancel_then_call_same_iteration_race :
    ∃ s, run empty [.op (.register (some 1)), .op (.register (some 2)),
        .iteration 2 fun x => if x = 0 then ⟨[.cancel 1], 0⟩ else ⟨[], 0⟩] = .ok s ∧
      s.log = [.call 0 2 1, .cancel 1 1] ++ .call 1 2 1 :: [] ∧ 1 = 1 :=
  Exists.imp (fun _ (h : _ ∧ _) => ⟨h.1, h.2, cancel_then_call_same_iteration h.1 h.2 (by simp)⟩) ⟨_, rfl, rfl⟩

/-! ### A cancel inside the timeout phase -/

section Race

variable (now : Int) {cb : Nat → Callback}

/-- What a call made on the timeouts does to the trace, the iterations and the table: the trace
only grows, the iterations stay, and the table only grows. -/
def Extends (s s' : Timeouts) : Prop :=
  s.log <+: s'.log ∧ s'.iterations = s.iterations ∧ s.table.length ≤ s'.table.length

theorem Extends.trans {s₁ s₂ s₃ : Timeouts} (h₁ : Extends s₁ s₂) (h₂ : Extends s₂ s₃) : Extends s₁ s₃ :=
  ⟨h₁.1.trans h₂.1, h₂.2.1.trans h₁.2.1, h₁.2.2.trans h₂.2.2⟩

theorem apply_extends (s : Timeouts) : ∀ o, Extends s (s.apply o)
  | .register _ => ⟨List.prefix_refl _, rfl, by simp [apply]⟩
  | .cancel _ => ⟨by simp only [apply, cancel_log, List.prefix_append], by simp [apply], by simp [apply]⟩

theorem foldl_apply_extends : ∀ (ops : List TimeoutOp) (s : Timeouts), Extends s (ops.foldl apply s)
  | [], _ => ⟨List.prefix_refl _, rfl, le_rfl⟩
  | o :: ops, s => (apply_extends s o).trans (foldl_apply_extends ops _)

theorem runCallbacks_append (l₁ l₂ : List Nat) (s : Timeouts) :
    runCallbacks now cb (l₁ ++ l₂) s = (runCallbacks now cb l₁ s).bind (runCallbacks now cb l₂) := by
  induction l₁ generalizing s with
  | nil => rfl
  | cons x l₁ ih => simp only [List.cons_append, runCallbacks]; split_ifs <;> simp [ih, Except.bind]

theorem runCallbacks_cons {x : Nat} (hx : (cb x).ret = 0) (l : List Nat) (s : Timeouts) :
    runCallbacks now cb (x :: l) s =
      runCallbacks now cb l ((cb x).ops.foldl apply { s with log := s.log ++ [.call x now s.iterations] }) := by
  simp [runCallbacks, hx]

/-- Callbacks that all return 0 are all called. -/
theorem runCallbacks_ok (hret : ∀ x, (cb x).ret = 0) :
    ∀ (l : List Nat) (s : Timeouts), ∃ s', runCallbacks now cb l s = .ok s' ∧ Extends s s'
  | [], s => ⟨s, rfl, List.prefix_refl _, rfl, le_rfl⟩
  | x :: l, s => by
    obtain ⟨s', h, he⟩ := runCallbacks_ok hret l _
    have hcall : Extends s { s with log := s.log ++ [.call x now s.iterations] } :=
      ⟨List.prefix_append _ _, rfl, le_rfl⟩
    exact ⟨s', (runCallbacks_cons now (hret x) l s).trans h, (hcall.trans (foldl_apply_extends _ _)).trans he⟩

/-- Two timeouts taken into the same list, the first one's callback cancelling the second: the
second is called all the same, after the cancel. -/
theorem cancelled_timeout_still_runs (s : Timeouts) (pre mid post : List Nat) (a b : Nat)
    (hsnap : s.snapshot now = pre ++ a :: mid ++ b :: post) (hb : b < s.table.length)
    (hcb : cb a = ⟨[.cancel b], 0⟩) (hret : ∀ x, (cb x).ret = 0) :
    ∃ s', iteration now cb s = .ok s' ∧ ∃ l₁ l₂ l₃,
      s'.log = l₁ ++ .cancel b (s.iterations + 1) :: l₂ ++ .call b now (s.iterations + 1) :: l₃ := by
  let s₀ : Timeouts := { s with heap := s.heap.dropWhile (s.due now), iterations := s.iterations + 1 }
  obtain ⟨s₁, h₁, e₁⟩ := runCallbacks_ok now hret pre s₀
  let s₂ := (cb a).ops.foldl apply { s₁ with log := s₁.log ++ [.call a now s₁.iterations] }
  have hlog₂ : s₂.log = s₁.log ++ [.call a now (s.iterations + 1), .cancel b (s.iterations + 1)] := by
    simp only [s₂, hcb, List.foldl, apply, cancel_log]
    rw [if_pos (lt_of_lt_of_le hb e₁.2.2), e₁.2.1]; simp
  obtain ⟨s₃, h₃, e₃⟩ := runCallbacks_ok now hret mid s₂
  let s₄ := (cb b).ops.foldl apply { s₃ with log := s₃.log ++ [.call b now s₃.iterations] }
  obtain ⟨s₅, h₅, e₅⟩ := runCallbacks_ok now hret post s₄
  have hk : s₃.iterations = s.iterations + 1 := by
    rw [e₃.2.1]
    exact (foldl_apply_extends _ _).2.1.trans e₁.2.1
  refine ⟨s₅, ?_, ?_⟩
  · show runCallbacks now cb (s.snapshot now) s₀ = _
    rw [hsnap, runCallbacks_append, runCallbacks_append, h₁, Except.bind, runCallbacks_cons now (hret a), h₃,
      Except.bind, runCallbacks_cons now (hret b), h₅]
  · obtain ⟨r₂, hr₂⟩ := e₃.1
    obtain ⟨r₁, hr₁⟩ := (foldl_apply_extends (cb b).ops { s₃ with log := s₃.log ++ [.call b now s₃.iterations] }).1.trans e₅.1
    refine ⟨s₁.log ++ [.call a now (s.iterations + 1)], r₂, r₁, ?_⟩
    rw [← hr₁, ← hr₂, hlog₂, hk]
    simp

/-- Two timeouts due at times 1 and 2, and an iteration at time 2 whose first callback cancels
the second timeout. -/
theorem cancelled_timeout_still_runs_at_two :
    ∃ s', iteration 2 (fun x => if x = 0 then ⟨[.cancel 1], 0⟩ else ⟨[], 0⟩)
        ((empty.register (some 1)).register (some 2)) = .ok s' ∧
      ∃ l₁ l₂ l₃, s'.log = l₁ ++ .cancel 1 1 :: l₂ ++ .call 1 2 1 :: l₃ :=
  cancelled_timeout_still_runs 2 _ [] [] [] 0 1 rfl (by decide) rfl fun x => by split_ifs <;> rfl

end Race

end Timeouts

end Disorder.Event

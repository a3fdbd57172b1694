import Mathlib.Data.Finset.Basic
import Mathlib.Data.Multiset.Basic

/-! The descriptor tables of the reactor (lib/event.c): for each mode, the registrations
`fds[0..nfds)`, the `enabled` mask handed to `select`, and `maxfd`. `ev_fd` appends a registration,
`ev_fd_cancel` moves the last registration into the slot it empties and recomputes `maxfd` when the
largest descriptor goes, and `ev_fd_enable`/`ev_fd_disable` set and clear mask bits. Proved: over
every sequence of these calls, with every enabled descriptor registered when it is enabled, the
table of each mode holds exactly the registrations made and not cancelled, as a multiset, whatever
order the swaps leave them in; `maxfd` is the largest registered descriptor, or 0; and every
enabled descriptor is registered and below the bound `ev_run` passes to `select`. -/

namespace Disorder.Event

/-- `ev_read`, `ev_write` and `ev_except`. -/
inductive FdMode where
  | read
  | write
  | except
  deriving DecidableEq, Repr

/-- The modes in the order `ev_run` visits them. -/
def FdMode.all : List FdMode := [.read, .write, .except]

/-- `FD_SETSIZE`. -/
def FD_SETSIZE : Nat := 1024

/-- A `struct fd`: the descriptor, its callback and the callback's user data (the callback and the
data are pointers, numbered here; `what` is only logged). -/
structure Fd where
  fd : Nat
  callback : Nat
  u : Nat
  deriving DecidableEq, Repr, Inhabited

/-- A `struct fdmode`. -/
structure Table where
  enabled : Finset Nat
  tripped : Finset Nat
  fds : List Fd
  maxfd : Nat
  deriving DecidableEq

/-- The calls on one mode's table. -/
inductive TableOp where
  | fd (fd callback u : Nat)
  | cancel (fd : Nat)
  | enable (fd : Nat)
  | disable (fd : Nat)
  deriving DecidableEq, Repr

namespace Table

/-- The tables of `ev_new`: zeroed. -/
def new : Table := ⟨∅, ∅, [], 0⟩

/-- The loop of `ev_fd_cancel` that finds the new largest descriptor. -/
def maxOf (fds : List Fd) : Nat := fds.foldl (fun m e => if e.fd > m then e.fd else m) 0

/-- `ev_fd`: a descriptor at or past `FD_SETSIZE` is refused; otherwise the registration is
appended, its descriptor enabled, and `maxfd` raised to it if it is larger. -/
def register (t : Table) (fd callback u : Nat) : Table :=
  if fd ≥ FD_SETSIZE then t else
  { t with enabled := insert fd t.enabled, fds := t.fds ++ [⟨fd, callback, u⟩],
           maxfd := if fd > t.maxfd then fd else t.maxfd }

/-- `ev_fd_cancel`: find the first registration of `fd` (asserting there is one), move the last
registration into its slot, drop the last slot, recompute `maxfd` if `fd` was it, and clear `fd` in
the mask. -/
def cancel (t : Table) (fd : Nat) : Except String Table :=
  let n := t.fds.findIdx (fun e => e.fd = fd)
  if n < t.fds.length then
    let fds := if n ≠ t.fds.length - 1 then t.fds.set n (t.fds.getD (t.fds.length - 1) default) else t.fds
    let fds := fds.take (t.fds.length - 1)
    .ok { t with enabled := t.enabled.erase fd, fds := fds,
                 maxfd := if fd = t.maxfd then maxOf fds else t.maxfd }
  else .error "abort"

/-- `ev_fd_enable` and `ev_fd_disable`; the latter clears the tripped bit too. -/
def enable (t : Table) (fd : Nat) : Table := { t with enabled := insert fd t.enabled }

def disable (t : Table) (fd : Nat) : Table :=
  { t with enabled := t.enabled.erase fd, tripped := t.tripped.erase fd }

def apply (t : Table) : TableOp → Except String Table
  | .fd fd callback u => .ok (t.register fd callback u)
  | .cancel fd => t.cancel fd
  | .enable fd => .ok (t.enable fd)
  | .disable fd => .ok (t.disable fd)

end Table

/-- A call on the reactor's descriptors: a mode and a call on its table. -/
structure FdOp where
  mode : FdMode
  op : TableOp
  deriving DecidableEq, Repr

/-- The tables of all three modes. -/
abbrev Tables := FdMode → Table

def FdOp.apply (ts : Tables) (o : FdOp) : Except String Tables :=
  ((ts o.mode).apply o.op).map fun t => Function.update ts o.mode t

def runFds (ts : Tables) : List FdOp → Except String Tables
  | [] => .ok ts
  | o :: os => (o.apply ts).bind (runFds · os)

/-- The calls `ev_fd_enable`'s comment allows: a descriptor is re-enabled only while it is registered
("it must not have been cancelled"), which the C leaves to its callers. -/
def TableOp.legal (t : Table) : TableOp → Bool
  | .enable n => t.fds.any fun e => e.fd == n
  | _ => true

def legal (ts : Tables) : List FdOp → Bool
  | [] => true
  | o :: os => o.op.legal (ts o.mode) && match o.apply ts with
    | .ok ts' => legal ts' os
    | .error _ => true

/-- The calls of one mode, in order. -/
def FdOp.on (m : FdMode) (o : FdOp) : Option TableOp := if o.mode = m then some o.op else none

/-- `ev_run`'s first argument to `select`: one more than the largest `maxfd` of the modes. -/
def selectWidth (ts : Tables) : Nat :=
  FdMode.all.foldl (fun m mode => if (ts mode).maxfd > m then (ts mode).maxfd else m) 0 + 1

/-- What the registrations of a mode should be after a sequence of its calls, from `m`: `ev_fd`
adds one (below `FD_SETSIZE`), `ev_fd_cancel fd` takes away one registration of `fd` (the calls
name only the descriptor, so which one, if several, is left open), and enabling and disabling
change none. -/
inductive Registers : Multiset Fd → List TableOp → Multiset Fd → Prop
  | nil (m : Multiset Fd) : Registers m [] m
  | fd {m m' : Multiset Fd} {fd cb u : Nat} {ops : List TableOp} : fd < FD_SETSIZE →
      Registers (m + {⟨fd, cb, u⟩}) ops m' → Registers m (.fd fd cb u :: ops) m'
  | refused {m m' : Multiset Fd} {fd cb u : Nat} {ops : List TableOp} : FD_SETSIZE ≤ fd →
      Registers m ops m' → Registers m (.fd fd cb u :: ops) m'
  | cancel {m m' : Multiset Fd} {e : Fd} {ops : List TableOp} : e ∈ m →
      Registers (m.erase e) ops m' → Registers m (.cancel e.fd :: ops) m'
  | enable {m m' : Multiset Fd} {fd : Nat} {ops : List TableOp} :
      Registers m ops m' → Registers m (.enable fd :: ops) m'
  | disable {m m' : Multiset Fd} {fd : Nat} {ops : List TableOp} :
      Registers m ops m' → Registers m (.disable fd :: ops) m'

/-- What holds of every table: `maxfd` is the largest registered descriptor, or 0 with none, and
every enabled descriptor is registered. -/
structure Table.Inv (t : Table) : Prop where
  le_maxfd : ∀ e ∈ t.fds, e.fd ≤ t.maxfd
  maxfd_mem : t.maxfd = 0 ∨ ∃ e ∈ t.fds, e.fd = t.maxfd
  enabled : ∀ fd ∈ t.enabled, ∃ e ∈ t.fds, e.fd = fd

/-- Moving the last entry into the slot of `x` and dropping the last slot leaves the others: the
removal of `ev_fd_cancel` and `ev_child_cancel`. -/
theorem swap_drop_perm {α : Type} [Inhabited α] (pre post : List α) (x : α) :
    ((if pre.length ≠ (pre ++ x :: post).length - 1 then
        (pre ++ x :: post).set pre.length ((pre ++ x :: post).getD ((pre ++ x :: post).length - 1) default)
      else pre ++ x :: post).take ((pre ++ x :: post).length - 1)).Perm (pre ++ post) := by
  have hlen : ∀ l : List α, (pre ++ x :: l).length = pre.length + l.length + 1 := fun l => by
    simp only [List.length_append, List.length_cons]; omega
  rcases List.eq_nil_or_concat post with rfl | ⟨mid, z, rfl⟩
  · rw [if_neg (by rw [hlen, List.length_nil]; omega), hlen, List.length_nil, Nat.add_zero, Nat.add_sub_cancel,
      List.take_left, List.append_nil]
  · have e : pre ++ x :: mid.concat z = (pre ++ x :: mid) ++ [z] := by
      simp only [List.concat_eq_append, List.append_assoc, List.cons_append]
    have hl : ((pre ++ x :: mid) ++ [z]).length - 1 = (pre ++ x :: mid).length := by
      rw [List.length_append, List.length_singleton, Nat.add_sub_cancel]
    rw [e, hl, if_pos (by rw [hlen]; omega), List.getD_eq_getElem?_getD, List.getElem?_concat_length,
      Option.getD_some, List.set_append_left _ _ (by rw [hlen]; omega), List.set_append_right _ _ (le_refl _),
      Nat.sub_self, List.set_cons_zero,
      List.take_left' (by simp only [List.length_append, List.length_cons, List.length_singleton]),
      List.concat_eq_append]
    exact (List.perm_append_singleton z mid).symm.append_left pre

/-- The removal at the first entry that `p` picks, as both cancels do it, takes away that entry. -/
theorem findIdx_swap_drop_perm {α : Type} [Inhabited α] (l : List α) (p : α → Bool) (hn : l.findIdx p < l.length) :
    p l[l.findIdx p] ∧ l.Perm (l[l.findIdx p] :: (if l.findIdx p ≠ l.length - 1 then
      l.set (l.findIdx p) (l.getD (l.length - 1) default) else l).take (l.length - 1)) := by
  have hx := List.findIdx_getElem (w := hn)
  generalize l.findIdx p = n at hn hx ⊢
  have key : l = l.take n ++ l[n] :: l.drop (n + 1) := by simp
  have hlen : (l.take n).length = n := by simp; omega
  have hswap := swap_drop_perm (l.take n) (l.drop (n + 1)) l[n]
  rw [← key, hlen] at hswap
  exact ⟨hx, (key ▸ List.perm_middle).trans (hswap.symm.cons _)⟩

namespace Table

variable {t t' : Table}

/-! ### One call -/

theorem maxOf_spec (fds : List Fd) :
    (∀ e ∈ fds, e.fd ≤ maxOf fds) ∧ (maxOf fds = 0 ∨ ∃ e ∈ fds, e.fd = maxOf fds) := by
  suffices h : ∀ (l : List Fd) (m : Nat), m ≤ l.foldl (fun m e => if e.fd > m then e.fd else m) m ∧
      (∀ e ∈ l, e.fd ≤ l.foldl (fun m e => if e.fd > m then e.fd else m) m) ∧
      (l.foldl (fun m e => if e.fd > m then e.fd else m) m = m ∨
        ∃ e ∈ l, e.fd = l.foldl (fun m e => if e.fd > m then e.fd else m) m) by
    obtain ⟨-, h₁, h₂⟩ := h fds 0
    exact ⟨h₁, h₂⟩
  intro l
  induction l with
  | nil => exact fun m => ⟨le_rfl, by simp, .inl rfl⟩
  | cons x xs ih =>
    intro m
    simp only [List.foldl_cons, List.mem_cons, forall_eq_or_imp, exists_eq_or_imp]
    by_cases hx : x.fd > m
    · obtain ⟨g₀, g₁, g₂⟩ := ih x.fd
      simp only [hx, if_true]
      exact ⟨by omega, ⟨g₀, g₁⟩, .inr (g₂.imp Eq.symm id)⟩
    · obtain ⟨g₀, g₁, g₂⟩ := ih m
      simp only [hx, if_false]
      exact ⟨g₀, ⟨by omega, g₁⟩, g₂.imp id .inr⟩

/-- `ev_fd_cancel` succeeds on a registered descriptor only; it then takes away one registration of
it and keeps the others. -/
theorem cancel_spec {fd : Nat} (h : t.cancel fd = .ok t') :
    ∃ x ∈ t.fds, x.fd = fd ∧ t.fds.Perm (x :: t'.fds) ∧ t'.enabled = t.enabled.erase fd ∧
      t'.maxfd = if fd = t.maxfd then maxOf t'.fds else t.maxfd := by
  unfold cancel at h
  dsimp only at h
  by_cases hn : t.fds.findIdx (fun e => decide (e.fd = fd)) < t.fds.length
  swap
  · rw [if_neg hn] at h; cases h
  rw [if_pos hn] at h
  cases h
  obtain ⟨hx, hp⟩ := findIdx_swap_drop_perm t.fds _ hn
  exact ⟨_, List.getElem_mem _, by simpa using hx, hp, rfl, rfl⟩

theorem mem_of_perm_cons {l l' : List Fd} {x e : Fd} (hp : l.Perm (x :: l')) (he : e ∈ l)
    (hne : e.fd ≠ x.fd) : e ∈ l' :=
  (List.mem_cons.1 (hp.subset he)).resolve_left fun h => hne (h ▸ rfl)

/-! ### Each call keeps the invariant -/

theorem Inv.new : Table.new.Inv := ⟨by simp [Table.new], .inl rfl, by simp [Table.new]⟩

theorem Inv.register (h : t.Inv) (fd cb u : Nat) : (t.register fd cb u).Inv := by
  unfold Table.register
  by_cases hbig : fd ≥ FD_SETSIZE
  · rw [if_pos hbig]; exact h
  rw [if_neg hbig]
  refine ⟨fun e he => ?_, ?_, fun x hx => ?_⟩
  · rcases List.mem_append.1 he with he | he
    · have := h.le_maxfd e he; dsimp only; split_ifs <;> omega
    · rw [List.mem_singleton.1 he]; dsimp only; split_ifs <;> omega
  · dsimp only
    split_ifs with hgt
    · exact .inr ⟨_, List.mem_append_right _ (List.mem_singleton_self _), rfl⟩
    · rcases h.maxfd_mem with h0 | ⟨e, he, hm⟩
      · exact .inl h0
      · exact .inr ⟨e, List.mem_append_left _ he, hm⟩
  · rcases Finset.mem_insert.1 hx with rfl | hx
    · exact ⟨_, List.mem_append_right _ (List.mem_singleton_self _), rfl⟩
    · obtain ⟨e, he, hfd⟩ := h.enabled x hx
      exact ⟨e, List.mem_append_left _ he, hfd⟩

theorem Inv.cancel (h : t.Inv) {fd : Nat} (hc : t.cancel fd = .ok t') : t'.Inv := by
  obtain ⟨x, hx, hxfd, hp, hen, hmax⟩ := cancel_spec hc
  have hkeep : ∀ e ∈ t.fds, e.fd ≠ fd → e ∈ t'.fds := fun e he hne => mem_of_perm_cons hp he (hxfd ▸ hne)
  have hsub : ∀ e ∈ t'.fds, e ∈ t.fds := fun e he => hp.symm.subset (List.mem_cons_of_mem _ he)
  refine ⟨fun e he => ?_, ?_, fun y hy => ?_⟩
  · rw [hmax]; split_ifs
    · exact (maxOf_spec _).1 e he
    · exact h.le_maxfd e (hsub e he)
  · rw [hmax]; split_ifs with hm
    · exact (maxOf_spec _).2
    · rcases h.maxfd_mem with h0 | ⟨e, he, hm'⟩
      · exact .inl h0
      · exact .inr ⟨e, hkeep e he (by omega), hm'⟩
  · rw [hen, Finset.mem_erase] at hy
    obtain ⟨e, he, hfd⟩ := h.enabled y hy.2
    exact ⟨e, hkeep e he (hfd ▸ hy.1), hfd⟩

theorem Inv.enable (h : t.Inv) {fd : Nat} (hr : ∃ e ∈ t.fds, e.fd = fd) : (t.enable fd).Inv :=
  ⟨h.le_maxfd, h.maxfd_mem, fun x hx => (Finset.mem_insert.1 hx).elim (fun h => h ▸ hr) (h.enabled x)⟩

theorem Inv.disable (h : t.Inv) (fd : Nat) : (t.disable fd).Inv :=
  ⟨h.le_maxfd, h.maxfd_mem, fun x hx => h.enabled x (Finset.mem_of_mem_erase hx)⟩

theorem Inv.apply (h : t.Inv) {op : TableOp} (hl : op.legal t) (ha : t.apply op = .ok t') : t'.Inv := by
  cases op with
  | fd fd cb u => cases ha; exact h.register fd cb u
  | cancel fd => exact h.cancel ha
  | enable fd =>
    cases ha
    exact h.enable (by simpa [TableOp.legal] using hl)
  | disable fd => cases ha; exact h.disable fd

/-- A call, followed by calls that leave `M`, leaves `M` from the table before it. -/
theorem apply_registers {op : TableOp} (ha : t.apply op = .ok t') {rest : List TableOp} {M : Multiset Fd}
    (hr : Registers ↑t'.fds rest M) : Registers ↑t.fds (op :: rest) M := by
  cases op with
  | fd fd cb u =>
    cases ha
    unfold Table.register at hr
    by_cases hbig : fd ≥ FD_SETSIZE
    · rw [if_pos hbig] at hr; exact .refused hbig hr
    · rw [if_neg hbig] at hr; exact .fd (by omega) (by simpa using hr)
  | cancel fd =>
    obtain ⟨x, hx, rfl, hp, -, -⟩ := cancel_spec ha
    refine .cancel (Multiset.mem_coe.2 hx) ?_
    rwa [Multiset.coe_erase, Multiset.coe_eq_coe.2 (List.erase_cons_head x t'.fds ▸ hp.erase x)]
  | enable fd => cases ha; exact .enable hr
  | disable fd => cases ha; exact .disable hr

end Table

/-! ### Runs -/

section Run

variable {ts ts' : Tables}

theorem FdOp.apply_eq {o : FdOp} (h : o.apply ts = .ok ts') :
    ∃ t, (ts o.mode).apply o.op = .ok t ∧ ts' = Function.update ts o.mode t := by
  unfold FdOp.apply at h
  cases ha : (ts o.mode).apply o.op with
  | error e => rw [ha] at h; cases h
  | ok t => rw [ha] at h; cases h; exact ⟨t, rfl, rfl⟩

/-- Over a run, each mode's table keeps the invariant and follows the registrations of its own
calls. -/
theorem runFds_spec : ∀ (ops : List FdOp) {ts ts' : Tables}, (∀ m, (ts m).Inv) → legal ts ops →
    runFds ts ops = .ok ts' → ∀ m, (ts' m).Inv ∧
      ∀ M, Registers ↑(ts' m).fds [] M → Registers ↑(ts m).fds (ops.filterMap (FdOp.on m)) M
  | [], _, _, hi, _, h, m => by cases h; exact ⟨hi m, fun M hM => hM⟩
  | o :: os, ts, ts', hi, hl, h, m => by
    simp only [legal, Bool.and_eq_true] at hl
    simp only [runFds] at h
    cases ho : o.apply ts with
    | error e => rw [ho] at h; cases h
    | ok ts₁ =>
      rw [ho] at h
      obtain ⟨t, ht, rfl⟩ := FdOp.apply_eq ho
      rw [ho] at hl
      have hi₁ : ∀ m, (Function.update ts o.mode t m).Inv := fun m => by
        by_cases hm : m = o.mode
        · subst hm; rw [Function.update_same]; exact (hi _).apply hl.1 ht
        · rw [Function.update_noteq hm]; exact hi m
      obtain ⟨h₁, h₂⟩ := runFds_spec os hi₁ hl.2 h m
      refine ⟨h₁, fun M hM => ?_⟩
      have := h₂ M hM
      by_cases hm : o.mode = m
      · subst hm
        rw [Function.update_same] at this
        simpa [FdOp.on] using Table.apply_registers ht this
      · rw [Function.update_noteq (Ne.symm hm)] at this
        simpa [FdOp.on, hm] using this

theorem maxfd_lt_selectWidth (ts : Tables) (m : FdMode) : (ts m).maxfd < selectWidth ts := by
  have hmax : ∀ a b : Nat, (if b > a then b else a) = max a b := fun a b => by split_ifs <;> omega
  simp only [selectWidth, FdMode.all, List.foldl_cons, List.foldl_nil, hmax]
  cases m <;> omega

/-- Over every sequence of `ev_fd`, `ev_fd_cancel`, `ev_fd_enable` and `ev_fd_disable` calls from
`ev_new` that enables only registered descriptors and cancels only registered ones, in each mode:
the table holds exactly the registrations made and not cancelled, as a multiset; `maxfd` is the
largest registered descriptor, or 0 with none; and every enabled descriptor is registered and
below the first argument `ev_run` gives `select`. -/
theorem fds_match_registrations {ops : List FdOp} (h : runFds (fun _ => Table.new) ops = .ok ts)
    (hl : legal (fun _ => Table.new) ops) (m : FdMode) :
    Registers 0 (ops.filterMap (FdOp.on m)) ↑(ts m).fds ∧
      (∀ e ∈ (ts m).fds, e.fd ≤ (ts m).maxfd) ∧ ((ts m).maxfd = 0 ∨ ∃ e ∈ (ts m).fds, e.fd = (ts m).maxfd) ∧
      ∀ fd ∈ (ts m).enabled, (∃ e ∈ (ts m).fds, e.fd = fd) ∧ fd < selectWidth ts := by
  obtain ⟨hi, hr⟩ := runFds_spec ops (fun _ => Table.Inv.new) hl h m
  refine ⟨hr _ (.nil _), hi.le_maxfd, hi.maxfd_mem, fun fd hfd => ?_⟩
  obtain ⟨e, he, rfl⟩ := hi.enabled fd hfd
  exact ⟨⟨e, he, rfl⟩, lt_of_le_of_lt (hi.le_maxfd e he) (maxfd_lt_selectWidth ts m)⟩

/-- Descriptors 3 and 5 registered for reading and 5 for writing, then 3 cancelled and 5 disabled
and enabled again: the read table holds the registration of 5 alone, with `maxfd` 5. -/
theorem fds_match_registrations_three :
    ∃ ts, runFds (fun _ => Table.new) [⟨.read, .fd 3 1 0⟩, ⟨.read, .fd 5 2 0⟩, ⟨.write, .fd 5 3 0⟩,
        ⟨.read, .cancel 3⟩, ⟨.read, .disable 5⟩, ⟨.read, .enable 5⟩] = .ok ts ∧
      legal (fun _ => Table.new) [⟨.read, .fd 3 1 0⟩, ⟨.read, .fd 5 2 0⟩, ⟨.write, .fd 5 3 0⟩,
        ⟨.read, .cancel 3⟩, ⟨.read, .disable 5⟩, ⟨.read, .enable 5⟩] = true ∧
      (ts .read).fds = [⟨5, 2, 0⟩] ∧ (ts .read).maxfd = 5 ∧
      (Registers 0 ([⟨.read, .fd 3 1 0⟩, ⟨.read, .fd 5 2 0⟩, ⟨.write, .fd 5 3 0⟩, ⟨.read, .cancel 3⟩,
          ⟨.read, .disable 5⟩, ⟨.read, .enable 5⟩].filterMap (FdOp.on .read)) ↑(ts .read).fds ∧
        (∀ e ∈ (ts .read).fds, e.fd ≤ (ts .read).maxfd) ∧
        ((ts .read).maxfd = 0 ∨ ∃ e ∈ (ts .read).fds, e.fd = (ts .read).maxfd) ∧
        ∀ fd ∈ (ts .read).enabled, (∃ e ∈ (ts .read).fds, e.fd = fd) ∧ fd < selectWidth ts) :=
  Exists.imp (fun _ (h : _ ∧ _ ∧ _ ∧ _) =>
      ⟨h.1, h.2.1, h.2.2.1, h.2.2.2, fds_match_registrations h.1 h.2.1 .read⟩)
    ⟨_, rfl, rfl, rfl, rfl⟩

end Run

end Disorder.Event

import Disorder.Hash.Table
import Mathlib.Data.List.Perm.Basic
import Mathlib.Algebra.Group.Nat.Basic

/-! The shape of the chained hash table over every run of `hash_add` and `hash_remove` from
`hash_new`. Each table keeps `256 * 2 ^ k` slots; every entry sits on the chain its stored hash
picks, `e->h & (nslots - 1)`; and `nitems` is the number of entries on all chains. `grow` moves
every entry to the chain of the doubled table without losing or duplicating one, so `hash_keys`
lists exactly `nitems` keys and `hash_count` is exact. -/

namespace Disorder.HashTable

variable {α : Type}

/-- Every entry on chain `s` of `slots` has its stored hash pick chain `s` among `n`. -/
def Placed (n : Nat) (slots : List (List (Entry α))) : Prop :=
  ∀ s, ∀ e ∈ slots.getD s [], slotOf e.h n = s

/-- What holds of every table a run from `hash_new` reaches. -/
structure Inv (t : Hash α) : Prop where
  size : ∃ k, t.nslots = 256 * 2 ^ k
  length : t.slots.length = t.nslots
  placed : Placed t.nslots t.slots
  count : t.nitems = t.slots.flatten.length

/-- The table operations a run is made of. -/
inductive HashOp (α : Type) where
  | add (key : List UInt8) (value : Option α) (mode : Mode)
  | remove (key : List UInt8)

def HashOp.apply (t : Hash α) : HashOp α → Hash α
  | .add key value mode => (hashAdd t key value mode).2
  | .remove key => (hashRemove t key).2

def runOps (t : Hash α) (ops : List (HashOp α)) : Hash α := ops.foldl HashOp.apply t

/-! ### Chains -/

section Chains

theorem flatMap_range_getD (l : List (List β)) :
    (List.range l.length).flatMap (fun n => l.getD n []) = l.flatten := by
  induction l with
  | nil => rfl
  | cons x xs ih =>
    rw [List.length_cons, List.range_succ_eq_map, List.flatMap_cons, List.flatMap_map]
    simp only [List.getD_cons_zero, List.getD_cons_succ, ih, List.flatten_cons]

theorem flatten_replicate_nil (n : Nat) : (List.replicate n ([] : List β)).flatten = [] := by simp

theorem mem_getD_modify {ns : List (List β)} {f : List β → List β} {i s : Nat} {e : β}
    (h : e ∈ (ns.modify f i).getD s []) : (s = i ∧ e ∈ f (ns.getD i [])) ∨ e ∈ ns.getD s [] := by
  simp only [List.getD_eq_getElem?_getD, List.getElem?_modify] at h ⊢
  by_cases hs : i = s
  · subst hs; left; refine ⟨rfl, ?_⟩; cases hn : ns[i]? <;> simp_all
  · right; cases hn : ns[s]? <;> simp_all

/-- A table of empty chains places every entry, there being none. -/
theorem placed_replicate_nil (n m : Nat) : Placed n (List.replicate m ([] : List (Entry α))) := fun s e he => by
  simp only [List.getD_eq_getElem?_getD, List.getElem?_replicate] at he
  split_ifs at he <;> simp at he

theorem Placed.modify {n i : Nat} {ns : List (List (Entry α))} {f : List (Entry α) → List (Entry α)}
    (hp : Placed n ns) (hf : ∀ e ∈ f (ns.getD i []), slotOf e.h n = i) : Placed n (ns.modify f i) :=
  fun s e he => (mem_getD_modify he).elim (fun ⟨hs, he⟩ => hs ▸ hf e he) (hp s e)

theorem length_flatten_modify {ns : List (List β)} {f : List β → List β} {i : Nat} (hi : i < ns.length) :
    (ns.modify f i).flatten.length + (ns.getD i []).length = ns.flatten.length + (f (ns.getD i [])).length := by
  induction ns generalizing i with
  | nil => simp at hi
  | cons x xs ih =>
    cases i with
    | zero => simp; omega
    | succ i =>
      have := ih (by simpa using hi)
      simp only [List.modify_succ_cons, List.flatten_cons, List.length_append, List.getD_cons_succ]
      omega

theorem flatten_modify_cons_perm {ns : List (List β)} {i : Nat} (hi : i < ns.length) (e : β) :
    (ns.modify (e :: ·) i).flatten.Perm (e :: ns.flatten) := by
  induction ns generalizing i with
  | nil => simp at hi
  | cons x xs ih =>
    cases i with
    | zero => simp
    | succ i =>
      simp only [List.modify_succ_cons, List.flatten_cons]
      exact ((ih (by simpa using hi)).append_left x).trans List.perm_middle

end Chains

/-! ### `grow` -/

section Grow

/-- `grow`'s step for one entry: push it on the front of its chain in the new table. -/
def push (n : Nat) (ns : List (List (Entry α))) (e : Entry α) : List (List (Entry α)) :=
  ns.modify (e :: ·) (slotOf e.h n)

/-- Pushing entries keeps the table's length and placement, and adds exactly those entries. -/
theorem foldl_push {n : Nat} (hn : 0 < n) (es : List (Entry α)) {ns : List (List (Entry α))}
    (hl : ns.length = n) (hp : Placed n ns) :
    (es.foldl (push n) ns).length = n ∧ Placed n (es.foldl (push n) ns) ∧
      (es.foldl (push n) ns).flatten.Perm (es ++ ns.flatten) := by
  induction es generalizing ns with
  | nil => exact ⟨hl, hp, List.Perm.refl _⟩
  | cons e es ih =>
    have hlt : slotOf e.h n < ns.length := hl ▸ slotOf_lt e.h n hn
    have hp' : Placed n (push n ns e) := hp.modify fun x hx => by
      rcases List.mem_cons.1 hx with rfl | hx
      exacts [rfl, hp _ x hx]
    obtain ⟨h₁, h₂, h₃⟩ := ih (by simp [push, hl]) hp'
    refine ⟨h₁, h₂, h₃.trans ?_⟩
    exact ((flatten_modify_cons_perm hlt e).append_left es).trans List.perm_middle

/-- `grow` doubles the slots and moves every entry to the chain its hash picks in the doubled
table, losing and duplicating none. -/
theorem grow_spec (t : Hash α) (hn : 0 < t.nslots) (hl : t.slots.length = t.nslots) :
    (grow t).nslots = 2 * t.nslots ∧ (grow t).nitems = t.nitems ∧
      (grow t).slots.length = 2 * t.nslots ∧ Placed (2 * t.nslots) (grow t).slots ∧
      (grow t).slots.flatten.Perm t.slots.flatten := by
  have key : ∀ (l : List Nat) (ns : List (List (Entry α))), ns.length = 2 * t.nslots →
      Placed (2 * t.nslots) ns →
      (l.foldl (fun ns n => (t.slots.getD n []).foldl (push (2 * t.nslots)) ns) ns).length = 2 * t.nslots ∧
      Placed (2 * t.nslots) (l.foldl (fun ns n => (t.slots.getD n []).foldl (push (2 * t.nslots)) ns) ns) ∧
      (l.foldl (fun ns n => (t.slots.getD n []).foldl (push (2 * t.nslots)) ns) ns).flatten.Perm
        ((l.reverse.flatMap fun n => t.slots.getD n []) ++ ns.flatten) := by
    intro l
    induction l with
    | nil => exact fun ns hl hp => ⟨hl, hp, List.Perm.refl _⟩
    | cons m l ih =>
      intro ns hl hp
      obtain ⟨h₁, h₂, h₃⟩ := foldl_push (by omega) (t.slots.getD m []) hl hp
      obtain ⟨g₁, g₂, g₃⟩ := ih _ h₁ h₂
      refine ⟨g₁, g₂, g₃.trans ?_⟩
      simp only [List.foldl_cons, List.reverse_cons, List.flatMap_append, List.flatMap_singleton,
        List.append_assoc]
      exact List.Perm.append_left _ h₃
  obtain ⟨h₁, h₂, h₃⟩ := key (List.range t.nslots) (List.replicate (2 * t.nslots) []) (by simp)
    (placed_replicate_nil _ _)
  refine ⟨rfl, rfl, h₁, h₂, h₃.trans ?_⟩
  rw [flatten_replicate_nil, List.append_nil, ← hl, ← flatMap_range_getD]
  exact List.reverse_perm _ |>.flatMap_right _

end Grow

/-! ### Each operation keeps the shape -/

section Ops

variable {t : Hash α}

theorem length_setFirst (p : Entry α → Bool) (v : α) (l : List (Entry α)) : (setFirst p v l).length = l.length := by
  induction l with
  | nil => rfl
  | cons e es ih => unfold setFirst; split_ifs <;> simp [ih]

theorem h_of_mem_setFirst {p : Entry α → Bool} {v : α} {l : List (Entry α)} {e : Entry α}
    (he : e ∈ setFirst p v l) : ∃ e' ∈ l, e.h = e'.h := by
  induction l with
  | nil => cases he
  | cons x xs ih =>
    unfold setFirst at he
    split_ifs at he
    · rcases List.mem_cons.1 he with rfl | he
      exacts [⟨x, List.mem_cons_self _ _, rfl⟩, ⟨e, List.mem_cons_of_mem _ he, rfl⟩]
    · rcases List.mem_cons.1 he with rfl | he
      · exact ⟨e, List.mem_cons_self _ _, rfl⟩
      · obtain ⟨e', he', hh⟩ := ih he; exact ⟨e', List.mem_cons_of_mem _ he', hh⟩

theorem Inv.pos (h : Inv t) : 0 < t.nslots := by
  obtain ⟨k, hk⟩ := h.size; rw [hk]; exact Nat.mul_pos (by decide) (Nat.two_pow_pos k)

theorem Inv.new : Inv (hashNew : Hash α) :=
  ⟨⟨0, rfl⟩, List.length_replicate _ _, placed_replicate_nil _ _, by
    simp only [hashNew, flatten_replicate_nil, List.length_nil]⟩

theorem Inv.grown (h : Inv t) : Inv (grow t) := by
  obtain ⟨h₁, h₂, h₃, h₄, h₅⟩ := grow_spec t h.pos h.length
  obtain ⟨k, hk⟩ := h.size
  exact ⟨⟨k + 1, by rw [h₁, hk, Nat.pow_succ]; omega⟩, h₁ ▸ h₃, h₁ ▸ h₄, by rw [h₂, h.count, h₅.length_eq]⟩

/-- A new entry pushed on the chain its hash picks. -/
theorem Inv.pushed (h : Inv t) (e : Entry α) :
    Inv { t with slots := t.slots.modify (e :: ·) (slotOf e.h t.nslots), nitems := t.nitems + 1 } := by
  have hlt : slotOf e.h t.nslots < t.slots.length := h.length ▸ slotOf_lt e.h t.nslots h.pos
  refine ⟨h.size, by simp [h.length], h.placed.modify fun x hx => ?_, ?_⟩
  · rcases List.mem_cons.1 hx with rfl | hx
    exacts [rfl, h.placed _ x hx]
  · have := length_flatten_modify (f := (e :: ·)) hlt
    simp only [List.length_cons] at this
    simp only [h.count]; omega

/-- A value stored into an entry of chain `i`. -/
theorem Inv.stored (h : Inv t) (p : Entry α → Bool) (v : α) {i : Nat} (hi : i < t.nslots) :
    Inv { t with slots := t.slots.modify (setFirst p v) i } := by
  refine ⟨h.size, by simp [h.length], h.placed.modify fun x hx => ?_, ?_⟩
  · obtain ⟨e', he', hh⟩ := h_of_mem_setFirst hx
    rw [hh]; exact h.placed _ e' he'
  · have := length_flatten_modify (f := setFirst p v) (h.length ▸ hi)
    rw [length_setFirst] at this
    simp only [h.count]; omega

/-- The first entry of chain `i` that passes `p`, which there is, unlinked. -/
theorem Inv.unlinked (h : Inv t) {p : Entry α → Bool} {i : Nat} (hi : i < t.nslots) {e : Entry α}
    (hf : (t.slots.getD i []).find? p = some e) :
    Inv { t with slots := t.slots.modify (List.eraseP p) i, nitems := t.nitems - 1 } := by
  refine ⟨h.size, by simp [h.length], h.placed.modify fun x hx => h.placed _ x (List.mem_of_mem_eraseP hx), ?_⟩
  have := length_flatten_modify (f := List.eraseP p) (h.length ▸ hi)
  have hmem := List.mem_of_find?_eq_some hf
  rw [List.length_eraseP_of_mem hmem (List.find?_some hf)] at this
  have hpos : 0 < (t.slots.getD i []).length := List.length_pos_of_mem hmem
  simp only [h.count]; omega

theorem Inv.add (h : Inv t) (key : List UInt8) (value : Option α) (mode : Mode) :
    Inv (hashAdd t key value mode).2 := by
  unfold hashAdd
  dsimp only
  split
  · split_ifs
    · exact h
    · split
      · exact h.stored _ _ (slotOf_lt _ _ h.pos)
      · exact h
  · split_ifs
    · exact h
    · exact h.grown.pushed ⟨key, hashfn key, value, rfl⟩
    · exact h.pushed ⟨key, hashfn key, value, rfl⟩

theorem Inv.remove (h : Inv t) (key : List UInt8) : Inv (hashRemove t key).2 := by
  unfold hashRemove
  dsimp only
  split
  · exact h.unlinked (slotOf_lt _ _ h.pos) ‹_›
  · exact h

theorem Inv.run (h : Inv t) (ops : List (HashOp α)) : Inv (runOps t ops) := by
  induction ops generalizing t with
  | nil => exact h
  | cons op ops ih =>
    refine ih ?_
    cases op with
    | add key value mode => exact h.add key value mode
    | remove key => exact h.remove key

/-- `hash_keys` lists the key of every entry, chain by chain. -/
theorem hashKeys_eq (h : t.slots.length = t.nslots) : hashKeys t = t.slots.flatten.map Entry.key := by
  rw [hashKeys, ← h, ← flatMap_range_getD, List.map_flatMap]

/-- Over every run of `hash_add` and `hash_remove` from `hash_new`: the table has `256 * 2 ^ k`
slots; every entry on chain `s` stores its key's hash and that hash picks chain `s`; `nitems` counts
the entries on all chains; growing the table doubles its slots and moves every entry to the chain
its hash picks in the doubled table, losing and duplicating none; and `hash_keys` lists exactly the
keys of the entries, `hash_count` of them. -/
theorem hash_shape (ops : List (HashOp α)) :
    let t := runOps hashNew ops
    (∃ k, t.nslots = 256 * 2 ^ k) ∧
      (∀ s, ∀ e ∈ t.slots.getD s [], e.h = hashfn e.key ∧ slotOf e.h t.nslots = s) ∧
      t.nitems = t.slots.flatten.length ∧
      ((grow t).nslots = 2 * t.nslots ∧ (grow t).slots.length = 2 * t.nslots ∧
        (grow t).slots.flatten.Perm t.slots.flatten ∧ Placed (grow t).nslots (grow t).slots) ∧
      hashKeys t = t.slots.flatten.map Entry.key ∧ (hashKeys t).length = hashCount t := by
  intro t
  have h : Inv t := Inv.new.run ops
  have hk := hashKeys_eq h.length
  have hg := grow_spec t h.pos h.length
  exact ⟨h.size, fun s e he => ⟨e.h_eq, h.placed s e he⟩, h.count,
    ⟨hg.1, hg.2.2.1, hg.2.2.2.2, h.grown.placed⟩, hk, by rw [hk, List.length_map, hashCount, h.count]⟩

end Ops

end Disorder.HashTable

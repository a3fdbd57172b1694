import Disorder.Hash.Map

/-! The chains of lib/hash.c as the code keeps them: `struct entry` cells linked by `next`
pointers, `slots` holding the head pointer of each chain, and the loops of `hash_add`,
`hash_remove`, `hash_find` and `grow` that walk and relink them. An address is an index into the
cells allocated so far; `hash_remove` unlinks a cell and never frees it, so a cell stays readable.
A walk is given the number of cells as fuel: a chain never holds a cell twice, so that is enough.

Proved: the chains in memory lay out the list model of `Disorder.HashTable` (`Layout`), each
operation keeps the layout, and so every run of the memory operations from `hash_new` computes the
list model's table, return codes and lookups included (`Layout.run`). -/

namespace Disorder.HashTable

variable {α : Type}

/-- A `struct entry`: the entry and its `next` pointer, an address or `none` for NULL. -/
structure Cell (α : Type) where
  entry : Entry α
  next : Option Nat

/-- The table in memory: the slot count, the item count, the head pointer of each chain, and every
cell allocated so far, by address. -/
structure Mem (α : Type) where
  nslots : Nat
  nitems : Nat
  slots : List (Option Nat)
  cells : List (Cell α)

/-! ### The code -/

section Code

/-- The chain search of `hash_add` and `hash_find`: `for(e = h->slots[..]; e; e = e->next)` until
`e->h == n || !strcmp(e->key, key)`, giving the cell's address. -/
def search (cells : List (Cell α)) (n : UInt64) (key : List UInt8) : Nat → Option Nat → Option Nat
  | 0, _ => none
  | _ + 1, none => none
  | fuel + 1, some a =>
    match cells[a]? with
    | none => none
    | some c => if keyMatches n key c.entry then some a else search cells n key fuel c.next

/-- The inner loop of `grow` over one old chain: `f = e->next`, then the cell is pushed on its
chain of the new slots, `e->next = newslots[..]; newslots[..] = e`. -/
def relink (newnslots : Nat) : Nat → Option Nat → List (Option Nat) × List (Cell α) →
    List (Option Nat) × List (Cell α)
  | 0, _, st => st
  | _ + 1, none, st => st
  | fuel + 1, some a, st =>
    match st.2[a]? with
    | none => st
    | some c =>
      let j := slotOf c.entry.h newnslots
      relink newnslots fuel c.next (st.1.set j (some a), st.2.set a { c with next := st.1.getD j none })

/-- A link `hash_remove` walks: `&h->slots[i]`, or the `next` field of a cell. -/
inductive Link where
  | slot (i : Nat)
  | next (a : Nat)

/-- The search of `hash_remove`: `for(ee = &h->slots[..]; (e = *ee); ee = &e->next)` until the
entry matches, giving the link that points at it and the cell. -/
def unlinkSearch (cells : List (Cell α)) (n : UInt64) (key : List UInt8) :
    Nat → Link → Option Nat → Option (Link × Cell α)
  | 0, _, _ => none
  | _ + 1, _, none => none
  | fuel + 1, ee, some a =>
    match cells[a]? with
    | none => none
    | some c => if keyMatches n key c.entry then some (ee, c) else unlinkSearch cells n key fuel (.next a) c.next

namespace Mem

/-- The head pointer of the chain hash `n` picks. -/
def head (M : Mem α) (n : UInt64) : Option Nat := M.slots.getD (slotOf n M.nslots) none

/-- `*ee = p`. -/
def store (M : Mem α) : Link → Option Nat → Mem α
  | .slot i, p => { M with slots := M.slots.set i p }
  | .next a, p => { M with cells := M.cells.modify (fun c => { c with next := p }) a }

/-- `hash_new`: 256 NULL head pointers. -/
def hashNew : Mem α := ⟨256, 0, List.replicate 256 none, []⟩

/-- `grow`: the cells of every old chain, slot by slot, relinked onto twice the slots. -/
def grow (M : Mem α) : Mem α :=
  let newnslots := 2 * M.nslots
  let st := (List.range M.nslots).foldl
    (fun st n => relink newnslots M.cells.length (M.slots.getD n none) st)
    (List.replicate newnslots none, M.cells)
  { M with nslots := newnslots, slots := st.1, cells := st.2 }

/-- `hash_add`: a found entry's value is overwritten; a new cell heads its chain. -/
def hashAdd (M : Mem α) (key : List UInt8) (value : Option α) (mode : Mode) : Int × Mem α :=
  let n := hashfn key
  match search M.cells n key M.cells.length (M.head n) with
  | some a =>
    if mode = .insert then (-1, M) else
    match value with
    | some v => (0, { M with cells := M.cells.modify (fun c => { c with entry := { c.entry with value := some v } }) a })
    | none => (0, M)
  | none =>
    if mode = .replace then (-1, M) else
    let M := if M.nitems ≥ M.nslots then M.grow else M
    let c : Cell α := ⟨⟨key, n, value, rfl⟩, M.head n⟩
    (0, { M with slots := M.slots.set (slotOf n M.nslots) (some M.cells.length), cells := M.cells ++ [c],
                 nitems := M.nitems + 1 })

/-- `hash_remove`: `*ee = e->next`. -/
def hashRemove (M : Mem α) (key : List UInt8) : Int × Mem α :=
  let n := hashfn key
  match unlinkSearch M.cells n key M.cells.length (.slot (slotOf n M.nslots)) (M.head n) with
  | some (ee, e) => (0, { M.store ee e.next with nitems := M.nitems - 1 })
  | none => (-1, M)

/-- `hash_find`: the value of the found cell. -/
def hashFind (M : Mem α) (key : List UInt8) : Option (Option α) :=
  (search M.cells (hashfn key) key M.cells.length (M.head (hashfn key))).bind
    fun a => M.cells[a]?.map (·.entry.value)

end Mem

/-- A table operation on the memory. -/
def HashOp.applyMem (M : Mem α) : HashOp α → Mem α
  | .add key value mode => (M.hashAdd key value mode).2
  | .remove key => (M.hashRemove key).2

def runMem (M : Mem α) (ops : List (HashOp α)) : Mem α := ops.foldl HashOp.applyMem M

end Code

/-! ### Chains in memory -/

section Chains

/-- Following `next` pointers from `p` visits the addresses `as` and ends at NULL. -/
inductive Chain (cells : List (Cell α)) : Option Nat → List Nat → Prop
  | null : Chain cells none []
  | cons {a : Nat} {c : Cell α} {as : List Nat} : cells[a]? = some c → Chain cells c.next as →
      Chain cells (some a) (a :: as)

/-- The entries of the cells at `as`. -/
def entriesAt (cells : List (Cell α)) (as : List Nat) : List (Entry α) :=
  as.filterMap fun a => cells[a]?.map Cell.entry

variable {cells cells' : List (Cell α)}

theorem Chain.unique {p : Option Nat} {as bs : List Nat} (h : Chain cells p as) (h' : Chain cells p bs) :
    as = bs := by
  induction h generalizing bs with
  | null => cases h'; rfl
  | cons ha _ ih =>
    cases h' with
    | cons ha' hc' => cases ha.symm.trans ha'; rw [ih hc']

theorem Chain.cons_iff {p : Option Nat} {a : Nat} {as : List Nat} :
    Chain cells p (a :: as) ↔ p = some a ∧ ∃ c, cells[a]? = some c ∧ Chain cells c.next as :=
  ⟨fun h => by cases h with | cons hc h => exact ⟨rfl, _, hc, h⟩, fun ⟨hp, _, hc, h⟩ => hp ▸ .cons hc h⟩

theorem Chain.suffix {p : Option Nat} {as : List Nat} (h : Chain cells p as) {pre : List Nat} {a : Nat}
    {post : List Nat} (hs : as = pre ++ a :: post) : Chain cells (some a) (a :: post) := by
  induction h generalizing pre with
  | null => cases pre <;> cases hs
  | cons ha hc ih =>
    cases pre with
    | nil => cases hs; exact .cons ha hc
    | cons b pre => cases hs; exact ih rfl

theorem Chain.nodup {p : Option Nat} {as : List Nat} (h : Chain cells p as) : as.Nodup := by
  induction h with
  | null => exact List.nodup_nil
  | @cons a c as ha hc ih =>
    refine List.nodup_cons.2 ⟨fun hm => ?_, ih⟩
    obtain ⟨pre, post, rfl⟩ := List.append_of_mem hm
    have := congrArg List.length ((Chain.cons ha hc).unique (hc.suffix rfl))
    simp only [List.length_cons, List.length_append] at this
    omega

theorem Chain.lt {p : Option Nat} {as : List Nat} (h : Chain cells p as) : ∀ a ∈ as, a < cells.length := by
  induction h with
  | null => simp
  | cons ha _ ih =>
    intro b hb
    rcases List.mem_cons.1 hb with rfl | hb
    exacts [(List.getElem?_eq_some_iff.1 ha).1, ih b hb]

theorem Chain.length_le {p : Option Nat} {as : List Nat} (h : Chain cells p as) : as.length ≤ cells.length := by
  have hs : as.Subperm (List.range cells.length) :=
    List.subperm_of_subset h.nodup fun a ha => List.mem_range.2 (h.lt a ha)
  simpa using hs.length_le

/-- A chain only reads the `next` fields of its own cells. -/
theorem Chain.frame {p : Option Nat} {as : List Nat} (h : Chain cells p as)
    (hc : ∀ a ∈ as, cells'[a]?.map Cell.next = cells[a]?.map Cell.next) : Chain cells' p as := by
  induction h with
  | null => exact .null
  | @cons a c as ha _ ih =>
    obtain ⟨c', hc', hn⟩ : ∃ c', cells'[a]? = some c' ∧ c'.next = c.next := by
      have := hc a (List.mem_cons_self _ _)
      rw [ha] at this
      cases h' : cells'[a]? with
      | none => rw [h'] at this; cases this
      | some c' => rw [h'] at this; exact ⟨c', rfl, Option.some.inj this⟩
    exact .cons hc' (hn ▸ ih fun b hb => hc b (List.mem_cons_of_mem _ hb))

theorem entriesAt_congr {as : List Nat}
    (hc : ∀ a ∈ as, cells'[a]?.map Cell.entry = cells[a]?.map Cell.entry) : entriesAt cells' as = entriesAt cells as :=
  List.filterMap_congr hc

theorem entriesAt_cons {p : Option Nat} {a : Nat} {as : List Nat} (h : Chain cells p (a :: as)) :
    ∃ c, cells[a]? = some c ∧ entriesAt cells (a :: as) = c.entry :: entriesAt cells as := by
  cases h with
  | cons ha _ => exact ⟨_, ha, by simp [entriesAt, ha]⟩

/-- The search walks the chain to its first matching cell. -/
theorem Chain.search_eq {p : Option Nat} {as : List Nat} (h : Chain cells p as) (n : UInt64)
    (key : List UInt8) {fuel : Nat} (hf : as.length ≤ fuel) :
    search cells n key fuel p = as.find? fun a => cells[a]?.any fun c => keyMatches n key c.entry := by
  induction h generalizing fuel with
  | null => cases fuel <;> rfl
  | @cons a c as ha _ ih =>
    obtain ⟨f, rfl⟩ : ∃ f, fuel = f + 1 := ⟨fuel - 1, by simp at hf; omega⟩
    rw [search, ha]
    simp only [List.find?_cons, ha, Option.any_some]
    cases keyMatches n key c.entry
    · exact ih (by simpa using hf)
    · rfl

theorem Chain.find_entriesAt {p : Option Nat} {as : List Nat} (h : Chain cells p as) (P : Entry α → Bool) :
    (entriesAt cells as).find? P =
      (as.find? fun a => cells[a]?.any fun c => P c.entry).bind fun a => cells[a]?.map Cell.entry := by
  induction h with
  | null => rfl
  | @cons a c as ha _ ih =>
    simp only [entriesAt, List.filterMap_cons, ha, Option.map_some', List.find?_cons, Option.any_some]
    cases P c.entry
    · exact ih
    · simp [ha]

theorem entriesAt_cons_of {a : Nat} {c : Cell α} (ha : cells[a]? = some c) (as : List Nat) :
    entriesAt cells (a :: as) = c.entry :: entriesAt cells as := by
  simp [entriesAt, ha]

/-- Overwriting the value of the first matching cell of a chain is `setFirst` on its entries. -/
theorem Chain.entriesAt_setValue {p : Option Nat} {as : List Nat} (h : Chain cells p as)
    {P : Entry α → Bool} {a : Nat} (hfa : (as.find? fun b => cells[b]?.any fun c => P c.entry) = some a)
    (v : α) :
    entriesAt (cells.modify (fun c => { c with entry := { c.entry with value := some v } }) a) as =
      setFirst P v (entriesAt cells as) := by
  have hnd := h.nodup
  induction h with
  | null => cases hfa
  | @cons b c as hb _ ih =>
    rw [List.nodup_cons] at hnd
    simp only [List.find?_cons, hb, Option.any_some] at hfa
    rw [entriesAt_cons_of hb, setFirst]
    by_cases hP : P c.entry
    · rw [hP] at hfa; cases hfa
      rw [if_pos hP, entriesAt_cons_of (by rw [List.getElem?_modify_eq, hb]; rfl)]
      exact congrArg _ (entriesAt_congr fun x hx => by
        rw [List.getElem?_modify_ne _ _ (ne_of_mem_of_not_mem hx hnd.1).symm])
    · rw [Bool.not_eq_true] at hP
      rw [hP] at hfa
      have hne : a ≠ b := fun h => by
        subst h; have := List.find?_some hfa; simp [hb, hP] at this
      rw [if_neg (by simp [hP]), entriesAt_cons_of (by rw [List.getElem?_modify_ne _ _ hne, hb]),
        ih hfa hnd.2]

end Chains

/-! ### Reading lists after a write -/

section Lists

variable {β : Type} {l : List β} {d : β} {i j : Nat}

theorem getD_modify_ne (f : β → β) (h : i ≠ j) : (l.modify f i).getD j d = l.getD j d := by
  simp only [List.getD_eq_getElem?_getD, List.getElem?_modify_ne _ _ h]

theorem getD_modify_self (f : β → β) (h : i < l.length) : (l.modify f i).getD i d = f (l.getD i d) := by
  simp [List.getD_eq_getElem?_getD, List.getElem?_modify_eq, List.getElem?_eq_getElem h]

theorem getD_set_ne (b : β) (h : i ≠ j) : (l.set i b).getD j d = l.getD j d := by
  simp only [List.getD_eq_getElem?_getD, List.getElem?_set_ne h]

theorem getD_set_self (b : β) (h : i < l.length) : (l.set i b).getD i d = b := by
  simp only [List.getD_eq_getElem?_getD, List.getElem?_set_self h, Option.getD_some]

end Lists

/-! ### The layout of a table in memory -/

section Layout

/-- Memory `M` lays out table `t` along the address lists `A`: the chain from head pointer `i`
runs through `A[i]`, whose cells hold the entries of chain `i`, and no address is on two chains. -/
structure Layout (M : Mem α) (t : Hash α) (A : List (List Nat)) : Prop where
  nslots : M.nslots = t.nslots
  nitems : M.nitems = t.nitems
  length : M.slots.length = t.slots.length
  addrs : A.length = t.slots.length
  chain : ∀ i, Chain M.cells (M.slots.getD i none) (A.getD i [])
  entries : ∀ i, entriesAt M.cells (A.getD i []) = t.slots.getD i []
  nodup : A.flatten.Nodup

variable {M : Mem α} {t : Hash α} {A : List (List Nat)}

theorem disjoint_getD (h : A.flatten.Nodup) {i j : Nat} (hij : i ≠ j) {a : Nat} (hi : a ∈ A.getD i [])
    (hj : a ∈ A.getD j []) : False := by
  by_cases hl : i < A.length
  · have hp := flatten_modify_perm hl id
    rw [List.modify_id] at hp
    have hjl : j < A.length := by
      by_contra hj'
      simp [List.getD_eq_getElem?_getD, List.getElem?_eq_none (Nat.le_of_not_lt hj')] at hj
    have hmem : A.getD j [] ∈ A.set i [] := by
      rw [List.mem_iff_getElem?]
      refine ⟨j, ?_⟩
      rw [List.getElem?_set, if_neg hij, List.getD_eq_getElem?_getD, List.getElem?_eq_getElem hjl]
      rfl
    exact List.disjoint_of_nodup_append (hp.nodup_iff.1 h) hi (List.mem_flatten.2 ⟨_, hmem, hj⟩)
  · simp [List.getD_eq_getElem?_getD, List.getElem?_eq_none (Nat.le_of_not_lt hl)] at hi

theorem Layout.hashFind_eq (hl : Layout M t A) (key : List UInt8) : M.hashFind key = hashFind t key := by
  have hc := hl.chain (slotOf (hashfn key) t.nslots)
  have he := hl.entries (slotOf (hashfn key) t.nslots)
  rw [← hl.nslots] at hc he
  rw [Mem.hashFind, Mem.head, hc.search_eq _ _ hc.length_le, hashFind, HashTable.chain, ← hl.nslots, ← he,
    hc.find_entriesAt, Option.map_bind]
  simp only [Function.comp_def, Option.map_map]

theorem Layout.lt (hl : Layout M t A) {a : Nat} (ha : a ∈ A.flatten) : a < M.cells.length := by
  obtain ⟨l, hlA, hal⟩ := List.mem_flatten.1 ha
  obtain ⟨j, hj, rfl⟩ := List.getElem_of_mem hlA
  have hc := hl.chain j
  rw [show A.getD j [] = A[j] by simp [List.getD_eq_getElem?_getD, hj]] at hc
  exact hc.lt a hal

theorem Inv.slot_lt (hi : Inv t) (n : UInt64) : slotOf n t.nslots < t.slots.length := by
  rw [hi.length]; exact slotOf_lt n _ hi.pos

/-- A write that keeps every `next` field keeps every chain. -/
theorem next_modify (f : Cell α → Cell α) (hf : ∀ c, (f c).next = c.next) (a b : Nat) (cells : List (Cell α)) :
    (cells.modify f a)[b]?.map Cell.next = cells[b]?.map Cell.next := by
  by_cases h : a = b
  · subst h; rw [List.getElem?_modify_eq]; cases cells[a]? <;> simp [hf]
  · rw [List.getElem?_modify_ne _ _ h]

/-- `hash_add` overwriting the value of a found entry. -/
theorem Layout.setValue (hl : Layout M t A) (hi : Inv t) {key : List UInt8} {a : Nat}
    (hs : search M.cells (hashfn key) key M.cells.length (M.head (hashfn key)) = some a) (v : α) :
    Layout { M with cells := M.cells.modify (fun c => { c with entry := { c.entry with value := some v } }) a }
      { t with slots := t.slots.modify (setFirst (keyMatches (hashfn key) key) v) (slotOf (hashfn key) t.nslots) }
      A := by
  have hin := hi.slot_lt (hashfn key)
  have hc := hl.chain (slotOf (hashfn key) t.nslots)
  rw [Mem.head, hl.nslots, hc.search_eq _ _ hc.length_le] at hs
  refine ⟨hl.nslots, hl.nitems, by simpa using hl.length, by simpa using hl.addrs,
    fun j => (hl.chain j).frame fun b _ => next_modify _ (fun _ => by exact rfl) a b M.cells, fun j => ?_, hl.nodup⟩
  by_cases hj : slotOf (hashfn key) t.nslots = j
  · subst hj
    rw [hc.entriesAt_setValue hs, hl.entries, getD_modify_self _ hin]
  · have hna : a ∉ A.getD j [] := fun ha => disjoint_getD hl.nodup hj (List.mem_of_find?_eq_some hs) ha
    rw [getD_modify_ne _ hj, ← hl.entries j]
    exact entriesAt_congr fun b hb => by rw [List.getElem?_modify_ne _ _ (ne_of_mem_of_not_mem hb hna).symm]

/-- `hash_add` linking a new cell at the head of its chain. -/
theorem Layout.push (hl : Layout M t A) (hi : Inv t) (key : List UInt8) (value : Option α) :
    Layout { M with slots := M.slots.set (slotOf (hashfn key) M.nslots) (some M.cells.length),
                    cells := M.cells ++ [⟨⟨key, hashfn key, value, rfl⟩, M.head (hashfn key)⟩],
                    nitems := M.nitems + 1 }
      { t with slots := t.slots.modify (⟨key, hashfn key, value, rfl⟩ :: ·) (slotOf (hashfn key) t.nslots),
               nitems := t.nitems + 1 }
      (A.modify (M.cells.length :: ·) (slotOf (hashfn key) t.nslots)) := by
  have hin := hi.slot_lt (hashfn key)
  have hold : ∀ {as : List Nat}, (∀ b ∈ as, b < M.cells.length) → ∀ c : Cell α,
      ∀ b ∈ as, (M.cells ++ [c])[b]? = M.cells[b]? := fun h _ b hb => List.getElem?_append_left (h b hb)
  rw [hl.nslots]
  refine ⟨rfl, by rw [hl.nitems], by simpa using hl.length, by simpa using hl.addrs, fun j => ?_,
    fun j => ?_, ?_⟩
  · by_cases hj : slotOf (hashfn key) t.nslots = j
    · subst hj
      rw [getD_set_self _ (hl.length ▸ hin), getD_modify_self _ (hl.addrs ▸ hin)]
      refine .cons (List.getElem?_concat_length _ _) ?_
      have hc := hl.chain (slotOf (hashfn key) t.nslots)
      rw [Mem.head, hl.nslots]
      exact hc.frame fun b hb => by rw [hold hc.lt _ b hb]
    · rw [getD_set_ne _ hj, getD_modify_ne _ hj]
      exact (hl.chain j).frame fun b hb => by rw [hold (hl.chain j).lt _ b hb]
  · by_cases hj : slotOf (hashfn key) t.nslots = j
    · subst hj
      rw [getD_modify_self _ (hl.addrs ▸ hin), getD_modify_self _ hin, entriesAt_cons_of
        (List.getElem?_concat_length _ _), ← hl.entries]
      exact congrArg _ (entriesAt_congr fun b hb => by
        rw [hold (hl.chain (slotOf (hashfn key) t.nslots)).lt _ b hb])
    · rw [getD_modify_ne _ hj, getD_modify_ne _ hj, ← hl.entries j]
      exact entriesAt_congr fun b hb => by rw [hold (hl.chain j).lt _ b hb]
  · refine ((flatten_modify_cons_perm (hl.addrs ▸ hin) _).nodup_iff).2 (List.nodup_cons.2 ⟨fun h => ?_, hl.nodup⟩)
    exact lt_irrefl _ (hl.lt h)

end Layout

/-! ### `grow` in memory -/

section Grow

variable {M : Mem α} {t : Hash α} {A : List (List Nat)}

/-- Part way through `grow` into `k` slots: the new chains so far run through `B` and hold `L`, every
cell not yet relinked is as it was, and no cell's entry has changed. -/
structure Grown (M : Mem α) (k : Nat) (ns : List (Option Nat)) (cells : List (Cell α))
    (B : List (List Nat)) (L : List (List (Entry α))) : Prop where
  slots : ns.length = k
  addrs : B.length = k
  lists : L.length = k
  size : cells.length = M.cells.length
  chain : ∀ j, Chain cells (ns.getD j none) (B.getD j [])
  entries : ∀ j, entriesAt cells (B.getD j []) = L.getD j []
  same : ∀ b : Nat, b ∉ B.flatten → cells[b]? = M.cells[b]?
  entry : ∀ b : Nat, cells[b]?.map Cell.entry = M.cells[b]?.map Cell.entry
  nodup : B.flatten.Nodup

theorem Grown.start (k : Nat) :
    Grown M k (List.replicate k none) M.cells (List.replicate k []) (List.replicate k []) := by
  refine ⟨by simp, by simp, by simp, rfl, fun j => ?_, fun j => ?_, fun _ _ => rfl, fun _ => rfl, by simp⟩
  all_goals simp only [List.getD_eq_getElem?_getD, List.getElem?_replicate]
  · split_ifs <;> exact .null
  · split_ifs <;> rfl

/-- One cell of an old chain pushed on its new chain: `e->next = newslots[j]; newslots[j] = e`. -/
theorem Grown.relinkCell {k : Nat} (hk : 0 < k) {ns : List (Option Nat)} {cells : List (Cell α)}
    {B : List (List Nat)} {L : List (List (Entry α))} (hg : Grown M k ns cells B L) {a : Nat} {c : Cell α}
    (ha : cells[a]? = some c) (hB : a ∉ B.flatten) :
    Grown M k (ns.set (slotOf c.entry.h k) (some a))
      (cells.set a { c with next := ns.getD (slotOf c.entry.h k) none })
      (B.modify (a :: ·) (slotOf c.entry.h k)) (L.modify (c.entry :: ·) (slotOf c.entry.h k)) := by
  have hj := slotOf_lt c.entry.h k hk
  have hal : a < cells.length := (List.getElem?_eq_some_iff.1 ha).1
  have hset : (cells.set a { c with next := ns.getD (slotOf c.entry.h k) none })[a]? =
      some { c with next := ns.getD (slotOf c.entry.h k) none } := List.getElem?_set_self hal
  have hother : ∀ {as : List Nat}, a ∉ as → ∀ b ∈ as,
      (cells.set a { c with next := ns.getD (slotOf c.entry.h k) none })[b]? = cells[b]? :=
    fun hn b hb => List.getElem?_set_ne (ne_of_mem_of_not_mem hb hn).symm
  have hnot : ∀ j, a ∉ B.getD j [] := fun j h => hB (by
    by_cases hj : j < B.length
    · exact List.mem_flatten.2 ⟨_, List.getElem_mem hj, by simpa [List.getD_eq_getElem?_getD, hj] using h⟩
    · simp [List.getD_eq_getElem?_getD, List.getElem?_eq_none (Nat.le_of_not_lt hj)] at h)
  have hperm := flatten_modify_cons_perm (show slotOf c.entry.h k < B.length by rw [hg.addrs]; exact hj) a
  refine ⟨by simpa using hg.slots, by simpa using hg.addrs, by simpa using hg.lists, by simpa using hg.size,
    fun j => ?_, fun j => ?_, fun b hb => ?_, fun b => ?_, hperm.nodup_iff.2 (List.nodup_cons.2 ⟨hB, hg.nodup⟩)⟩
  · by_cases hjj : slotOf c.entry.h k = j
    · subst hjj
      rw [getD_set_self _ (hg.slots ▸ hj), getD_modify_self _ (hg.addrs ▸ hj)]
      exact .cons hset ((hg.chain _).frame fun b hb => by rw [hother (hnot _) b hb])
    · rw [getD_set_ne _ hjj, getD_modify_ne _ hjj]
      exact (hg.chain j).frame fun b hb => by rw [hother (hnot _) b hb]
  · by_cases hjj : slotOf c.entry.h k = j
    · subst hjj
      rw [getD_modify_self _ (hg.addrs ▸ hj), getD_modify_self _ (hg.lists ▸ hj), entriesAt_cons_of hset,
        ← hg.entries]
      exact congrArg _ (entriesAt_congr fun b hb => by rw [hother (hnot _) b hb])
    · rw [getD_modify_ne _ hjj, getD_modify_ne _ hjj, ← hg.entries j]
      exact entriesAt_congr fun b hb => by rw [hother (hnot _) b hb]
  · have hb' : b ≠ a ∧ b ∉ B.flatten := by
      rw [hperm.mem_iff, List.mem_cons, not_or] at hb; exact hb
    rw [List.getElem?_set_ne (Ne.symm hb'.1), hg.same b hb'.2]
  · by_cases hba : a = b
    · subst hba; rw [hset, ← hg.entry, ha]; rfl
    · rw [List.getElem?_set_ne hba, hg.entry]

/-- The inner loop of `grow` relinks an old chain, cell by cell. -/
theorem Grown.relink {k : Nat} (hk : 0 < k) {p : Option Nat} {as : List Nat} (hc : Chain M.cells p as)
    {fuel : Nat} (hf : as.length ≤ fuel) {ns : List (Option Nat)} {cells : List (Cell α)}
    {B : List (List Nat)} {L : List (List (Entry α))} (hg : Grown M k ns cells B L)
    (hd : ∀ a ∈ as, a ∉ B.flatten) :
    ∃ B', Grown M k (relink k fuel p (ns, cells)).1 (relink k fuel p (ns, cells)).2 B'
        ((entriesAt M.cells as).foldl (fun L e => L.modify (e :: ·) (slotOf e.h k)) L) ∧
      ∀ b, b ∈ B'.flatten ↔ b ∈ as ∨ b ∈ B.flatten := by
  induction hc generalizing fuel ns cells B L with
  | null => exact ⟨B, by cases fuel <;> exact hg, fun b => by simp⟩
  | @cons a c as ha hc ih =>
    obtain ⟨f, rfl⟩ : ∃ f, fuel = f + 1 := ⟨fuel - 1, by simp at hf; omega⟩
    have hB := hd a (List.mem_cons_self _ _)
    have ha' : cells[a]? = some c := (hg.same a hB).trans ha
    have hg' := hg.relinkCell hk ha' hB
    have hnd := (Chain.cons ha hc).nodup
    have hperm := flatten_modify_cons_perm (show slotOf c.entry.h k < B.length by
      rw [hg.addrs]; exact slotOf_lt _ k hk) a
    obtain ⟨B', hg'', hmem⟩ := ih (by simpa using hf) hg' fun a' ha'' h => by
      rw [hperm.mem_iff, List.mem_cons] at h
      rcases h with rfl | h
      exacts [(List.nodup_cons.1 hnd).1 ha'', hd a' (List.mem_cons_of_mem _ ha'') h]
    refine ⟨B', ?_, fun b => ?_⟩
    · rw [Disorder.HashTable.relink, ha']
      rwa [entriesAt_cons_of ha, List.foldl_cons]
    · rw [hmem, hperm.mem_iff, List.mem_cons, List.mem_cons, or_assoc, or_left_comm]

/-- The outer loop of `grow`, over the old chains `ks`. -/
theorem Layout.relinkAll (hl : Layout M t A) {k : Nat} (hk : 0 < k) {ks : List Nat}
    (hks : (ks.flatMap (A.getD · [])).Nodup) {ns : List (Option Nat)} {cells : List (Cell α)}
    {B : List (List Nat)} {L : List (List (Entry α))} (hg : Grown M k ns cells B L)
    (hd : ∀ a ∈ ks.flatMap (A.getD · []), a ∉ B.flatten) :
    ∃ B', Grown M k
      (ks.foldl (fun st n => relink k M.cells.length (M.slots.getD n none) st) (ns, cells)).1
      (ks.foldl (fun st n => relink k M.cells.length (M.slots.getD n none) st) (ns, cells)).2 B'
      (ks.foldl (fun L n => (t.slots.getD n []).foldl (fun L e => L.modify (e :: ·) (slotOf e.h k)) L) L) := by
  induction ks generalizing ns cells B L with
  | nil => exact ⟨B, hg⟩
  | cons n ks ih =>
    rw [List.flatMap_cons] at hks hd
    have hc := hl.chain n
    obtain ⟨B', hg', hmem⟩ := hg.relink hk hc hc.length_le fun a ha => hd a (List.mem_append_left _ ha)
    rw [hl.entries] at hg'
    simp only [List.foldl_cons]
    exact ih (List.Nodup.of_append_right hks) hg' fun a ha h => by
      rcases (hmem a).1 h with h | h
      exacts [List.disjoint_of_nodup_append hks h ha, hd a (List.mem_append_right _ ha) h]

/-- `grow` in memory lays out the list model's `grow`. -/
theorem Layout.grow (hl : Layout M t A) (hi : Inv t) : ∃ A', Layout M.grow (grow t) A' := by
  have hk : 0 < 2 * t.nslots := Nat.mul_pos (by decide) hi.pos
  have hks : ((List.range t.nslots).flatMap (A.getD · [])).Nodup := by
    rw [← hi.length, ← hl.addrs, flatMap_range_getD]; exact hl.nodup
  obtain ⟨B, hg⟩ := hl.relinkAll hk hks (Grown.start (2 * t.nslots)) (by simp)
  have hgl := (grow_spec t hi.pos hi.length).2.2.1
  refine ⟨B, ?_⟩
  unfold Mem.grow
  rw [hl.nslots]
  exact ⟨rfl, hl.nitems, hg.slots.trans hgl.symm, hg.addrs.trans hgl.symm, hg.chain, hg.entries, hg.nodup⟩

end Grow

/-! ### `hash_remove` in memory -/

section Remove

variable {cells : List (Cell α)}

/-- A search of `hash_remove` that finds nothing has walked a chain with no matching cell. -/
theorem Chain.unlinkSearch_none {p : Option Nat} {as : List Nat} (h : Chain cells p as) {n : UInt64}
    {key : List UInt8} {fuel : Nat} (hf : as.length ≤ fuel) {ee : Link}
    (hs : unlinkSearch cells n key fuel ee p = none) :
    ∀ b ∈ as, ∀ d, cells[b]? = some d → keyMatches n key d.entry = false := by
  induction h generalizing fuel ee with
  | null => simp
  | @cons a c as ha _ ih =>
    obtain ⟨f, rfl⟩ : ∃ f, fuel = f + 1 := ⟨fuel - 1, by simp at hf; omega⟩
    rw [unlinkSearch, ha] at hs
    dsimp only at hs
    have hm : keyMatches n key c.entry = false := by
      by_contra hm; rw [if_pos (by simpa using hm)] at hs; cases hs
    rw [if_neg (by simp [hm])] at hs
    intro b hb d hd
    rcases List.mem_cons.1 hb with rfl | hb
    · rw [ha] at hd; cases hd; exact hm
    · exact ih (by simpa using hf) hs b hb d hd

/-- A search of `hash_remove` that finds a cell stops at the first matching cell of the chain, with
the walk's starting link if the cell heads the chain and otherwise the `next` field before it. -/
theorem Chain.unlinkSearch_some {p : Option Nat} {as : List Nat} (h : Chain cells p as) {n : UInt64}
    {key : List UInt8} {fuel : Nat} (hf : as.length ≤ fuel) {ee ee' : Link} {c : Cell α}
    (hs : unlinkSearch cells n key fuel ee p = some (ee', c)) :
    ∃ pre a post, as = pre ++ a :: post ∧ cells[a]? = some c ∧ keyMatches n key c.entry ∧
      (∀ b ∈ pre, ∀ d, cells[b]? = some d → keyMatches n key d.entry = false) ∧
      ee' = (pre.getLast?.map Link.next).getD ee := by
  induction h generalizing fuel ee with
  | null => cases fuel <;> cases hs
  | @cons a d as ha _ ih =>
    obtain ⟨f, rfl⟩ : ∃ f, fuel = f + 1 := ⟨fuel - 1, by simp at hf; omega⟩
    rw [unlinkSearch, ha] at hs
    dsimp only at hs
    by_cases hm : keyMatches n key d.entry
    · rw [if_pos hm] at hs
      cases hs
      exact ⟨[], a, as, rfl, ha, hm, by simp, rfl⟩
    · rw [if_neg hm] at hs
      obtain ⟨pre, b, post, rfl, hb, hbm, hpre, hee⟩ := ih (by simpa using hf) hs
      refine ⟨a :: pre, b, post, rfl, hb, hbm, fun x hx e he => ?_, ?_⟩
      · rcases List.mem_cons.1 hx with rfl | hx
        · rw [ha] at he; cases he; simpa using hm
        · exact hpre x hx e he
      · rw [hee, List.getLast?_cons]
        cases pre.getLast? <;> rfl

theorem entry_modify_next (q : Option Nat) (b x : Nat) (cells : List (Cell α)) :
    (cells.modify (fun d => { d with next := q }) b)[x]?.map Cell.entry = cells[x]?.map Cell.entry := by
  by_cases h : b = x
  · subst h; rw [List.getElem?_modify_eq]; cases cells[b]? <;> rfl
  · rw [List.getElem?_modify_ne _ _ h]

/-- Pointing the `next` field of `b` past its successor `a` drops `a` from the chain. -/
theorem Chain.bypass {p : Option Nat} {pre post : List Nat} {b a : Nat} {c : Cell α}
    (h : Chain cells p (pre ++ b :: a :: post)) (ha : cells[a]? = some c) :
    Chain (cells.modify (fun d => { d with next := c.next }) b) p (pre ++ b :: post) := by
  have hnd := h.nodup
  induction pre generalizing p with
  | nil =>
    obtain ⟨rfl, d, hb, hrest⟩ := Chain.cons_iff.1 h
    obtain ⟨-, c', ha', hpost⟩ := Chain.cons_iff.1 hrest
    rw [ha] at ha'; cases ha'
    have hbp : b ∉ post := fun hb' => (List.nodup_cons.1 hnd).1 (List.mem_cons_of_mem _ hb')
    refine @Chain.cons _ _ b { d with next := c.next } post (by rw [List.getElem?_modify_eq, hb]; rfl)
      (hpost.frame fun x hx => ?_)
    rw [List.getElem?_modify_ne _ _ (ne_of_mem_of_not_mem hx hbp).symm]
  | cons x pre ih =>
    cases h with
    | cons hx hrest =>
      have hxb : b ≠ x := fun hbx => (List.nodup_cons.1 hnd).1 (by simp [hbx])
      exact .cons (by rw [List.getElem?_modify_ne _ _ hxb, hx]) (ih hrest (List.nodup_cons.1 hnd).2)

variable {M : Mem α} {t : Hash α} {A : List (List Nat)}

/-- `*ee = e->next` on chain `i`, `ee` being the link before the cell: the chain drops the cell,
the other head pointers stay, only the cell before it is written, and no entry changes. -/
theorem Chain.unlinked {i : Nat} (hi : i < M.slots.length) {pre post : List Nat} {a : Nat} {c : Cell α}
    (h : Chain M.cells (M.slots.getD i none) (pre ++ a :: post)) (ha : M.cells[a]? = some c) :
    let M' := M.store ((pre.getLast?.map Link.next).getD (.slot i)) c.next
    Chain M'.cells (M'.slots.getD i none) (pre ++ post) ∧ (∀ j, i ≠ j → M'.slots.getD j none = M.slots.getD j none) ∧
      (∀ x : Nat, x ∉ pre → M'.cells[x]? = M.cells[x]?) ∧
        ∀ x : Nat, M'.cells[x]?.map Cell.entry = M.cells[x]?.map Cell.entry := by
  rcases List.eq_nil_or_concat pre with rfl | ⟨pre, b, rfl⟩
  · dsimp only [List.getLast?_nil, Option.map_none', Option.getD_none, Mem.store, List.nil_append] at h ⊢
    refine ⟨?_, fun j hj => getD_set_ne _ hj, fun _ _ => rfl, fun _ => rfl⟩
    obtain ⟨hp, c', ha', hpost⟩ := Chain.cons_iff.1 h
    rw [ha] at ha'; cases ha'
    rwa [getD_set_self _ hi]
  · simp only [List.concat_eq_append, List.getLast?_concat, Option.map_some', Option.getD_some,
      Mem.store] at h ⊢
    refine ⟨?_, fun _ _ => trivial, fun x hx => List.getElem?_modify_ne _ _ fun hb => hx (by simp [hb]),
      fun x => entry_modify_next _ _ _ _⟩
    rw [List.append_assoc, List.singleton_append] at h ⊢
    exact h.bypass ha

theorem Mem.store_nslots (M : Mem α) (l : Link) (q : Option Nat) : (M.store l q).nslots = M.nslots := by
  cases l <;> rfl

theorem Mem.store_slots_length (M : Mem α) (l : Link) (q : Option Nat) :
    (M.store l q).slots.length = M.slots.length := by
  cases l <;> simp [Mem.store]

/-- Unlinking the first matching cell is `eraseP` on the chain's entries. -/
theorem entriesAt_eraseP {pre post : List Nat} {a : Nat} {c : Cell α} (hac : cells[a]? = some c)
    {P : Entry α → Bool} (hm : P c.entry) (hpre : ∀ b ∈ pre, ∀ d, cells[b]? = some d → P d.entry = false) :
    (entriesAt cells (pre ++ a :: post)).eraseP P = entriesAt cells (pre ++ post) := by
  simp only [entriesAt, List.filterMap_append, List.filterMap_cons, hac, Option.map_some']
  rw [List.eraseP_append_right _ fun e he => ?_, List.eraseP_cons_of_pos hm]
  obtain ⟨b, hb, hbe⟩ := List.mem_filterMap.1 he
  obtain ⟨d, hd, rfl⟩ := Option.map_eq_some'.1 hbe
  simp [hpre b hb d hd]

/-- `hash_remove` unlinking the first matching cell `a` of the chain `pre ++ a :: post`. -/
theorem Layout.unlinkAt (hl : Layout M t A) (hi : Inv t) {key : List UInt8} {pre post : List Nat} {a : Nat}
    {c : Cell α} (has : A.getD (slotOf (hashfn key) t.nslots) [] = pre ++ a :: post)
    (hac : M.cells[a]? = some c) (hm : keyMatches (hashfn key) key c.entry)
    (hpre : ∀ b ∈ pre, ∀ d, M.cells[b]? = some d → keyMatches (hashfn key) key d.entry = false) :
    Layout { M.store ((pre.getLast?.map Link.next).getD (.slot (slotOf (hashfn key) M.nslots))) c.next with
              nitems := M.nitems - 1 }
      { t with slots := t.slots.modify (List.eraseP (keyMatches (hashfn key) key)) (slotOf (hashfn key) t.nslots),
               nitems := t.nitems - 1 }
      (A.modify (fun _ => pre ++ post) (slotOf (hashfn key) t.nslots)) := by
  have hin := hi.slot_lt (hashfn key)
  have hc := hl.chain (slotOf (hashfn key) t.nslots)
  rw [has, ← hl.nslots] at hc
  obtain ⟨h1, h2, h3, h4⟩ := Chain.unlinked (by rw [hl.length, hl.nslots]; exact hin) hc hac
  have hpreA : ∀ {j}, slotOf (hashfn key) t.nslots ≠ j → ∀ x ∈ A.getD j [], x ∉ pre := fun hj x hx hxp =>
    disjoint_getD hl.nodup hj (by rw [has]; exact List.mem_append_left _ hxp) hx
  refine ⟨(Mem.store_nslots _ _ _).trans hl.nslots,
    by rw [hl.nitems], by simpa [Mem.store_slots_length] using hl.length, by simpa using hl.addrs,
    fun j => ?_, fun j => ?_, ?_⟩
  · by_cases hj : slotOf (hashfn key) t.nslots = j
    · subst hj
      rw [getD_modify_self _ (by rw [hl.addrs]; exact hin), ← hl.nslots]
      exact h1
    · rw [getD_modify_ne _ hj, h2 j (by rwa [hl.nslots])]
      exact (hl.chain j).frame fun x hx => by rw [h3 x (hpreA hj x hx)]
  · rw [entriesAt_congr fun x _ => h4 x]
    by_cases hj : slotOf (hashfn key) t.nslots = j
    · subst hj
      rw [getD_modify_self _ (by rw [hl.addrs]; exact hin), getD_modify_self _ hin, ← hl.entries, has,
        entriesAt_eraseP hac hm hpre]
    · rw [getD_modify_ne _ hj, getD_modify_ne _ hj, hl.entries]
  · have hp := flatten_modify_perm (show slotOf (hashfn key) t.nslots < A.length by rw [hl.addrs]; exact hin)
    have hA := (hp id).nodup_iff.1 (by rw [List.modify_id]; exact hl.nodup)
    rw [id, has] at hA
    refine (hp _).nodup_iff.2 (hA.sublist ?_)
    exact ((List.Sublist.refl pre).append (List.sublist_cons_self a post)).append (List.Sublist.refl _)

/-- `hash_remove` unlinking the found cell. -/
theorem Layout.unlink (hl : Layout M t A) (hi : Inv t) {key : List UInt8} {ee : Link} {c : Cell α}
    (hs : unlinkSearch M.cells (hashfn key) key M.cells.length (.slot (slotOf (hashfn key) M.nslots))
      (M.head (hashfn key)) = some (ee, c)) :
    ∃ A', Layout { M.store ee c.next with nitems := M.nitems - 1 }
      { t with slots := t.slots.modify (List.eraseP (keyMatches (hashfn key) key)) (slotOf (hashfn key) t.nslots),
               nitems := t.nitems - 1 } A' := by
  have hc := hl.chain (slotOf (hashfn key) t.nslots)
  rw [Mem.head] at hs
  rw [← hl.nslots] at hc
  obtain ⟨pre, a, post, has, hac, hm, hpre, rfl⟩ := hc.unlinkSearch_some hc.length_le hs
  rw [hl.nslots] at has
  exact ⟨_, hl.unlinkAt hi has hac hm hpre⟩

end Remove

/-! ### Every run -/

section Run

variable {M : Mem α} {t : Hash α} {A : List (List Nat)}

theorem Layout.find_chain (hl : Layout M t A) (key : List UInt8) :
    (HashTable.chain t (hashfn key)).find? (keyMatches (hashfn key) key) =
      (search M.cells (hashfn key) key M.cells.length (M.head (hashfn key))).bind
        fun a => M.cells[a]?.map Cell.entry := by
  have hc := hl.chain (slotOf (hashfn key) t.nslots)
  rw [HashTable.chain, ← hl.entries, hc.find_entriesAt, Mem.head, hl.nslots, hc.search_eq _ _ hc.length_le]

theorem Layout.add (hl : Layout M t A) (hi : Inv t) (key : List UInt8) (value : Option α) (mode : Mode) :
    (M.hashAdd key value mode).1 = (hashAdd t key value mode).1 ∧
      ∃ A', Layout (M.hashAdd key value mode).2 (hashAdd t key value mode).2 A' := by
  have hf := hl.find_chain key
  unfold Mem.hashAdd hashAdd
  dsimp only
  rw [hf]
  cases hs : search M.cells (hashfn key) key M.cells.length (M.head (hashfn key)) with
  | some a =>
    have hc := hl.chain (slotOf (hashfn key) t.nslots)
    have ha : a ∈ A.getD (slotOf (hashfn key) t.nslots) [] := by
      have hs' := hs
      rw [Mem.head, hl.nslots, hc.search_eq _ _ hc.length_le] at hs'
      exact List.mem_of_find?_eq_some hs'
    obtain ⟨c, hac⟩ : ∃ c, M.cells[a]? = some c := ⟨_, List.getElem?_eq_getElem (hc.lt a ha)⟩
    simp only [Option.some_bind, hac, Option.map_some']
    by_cases hmode : mode = .insert
    · rw [if_pos hmode, if_pos hmode]; exact ⟨rfl, A, hl⟩
    rw [if_neg hmode, if_neg hmode]
    cases value with
    | none => exact ⟨rfl, A, hl⟩
    | some v => exact ⟨rfl, A, hl.setValue hi hs v⟩
  | none =>
    simp only [Option.none_bind]
    by_cases hmode : mode = .replace
    · rw [if_pos hmode, if_pos hmode]; exact ⟨rfl, A, hl⟩
    rw [if_neg hmode, if_neg hmode]
    obtain ⟨A₁, h₁, hi₁⟩ : ∃ A₁, Layout (if M.nitems ≥ M.nslots then M.grow else M)
        (if t.nitems ≥ t.nslots then HashTable.grow t else t) A₁ ∧
          Inv (if t.nitems ≥ t.nslots then HashTable.grow t else t) := by
      rw [hl.nitems, hl.nslots]
      split_ifs
      · obtain ⟨A₁, h₁⟩ := hl.grow hi; exact ⟨A₁, h₁, hi.grown⟩
      · exact ⟨A, hl, hi⟩
    exact ⟨rfl, _, h₁.push hi₁ key value⟩

theorem Layout.remove (hl : Layout M t A) (hi : Inv t) (key : List UInt8) :
    (M.hashRemove key).1 = (hashRemove t key).1 ∧ ∃ A', Layout (M.hashRemove key).2 (hashRemove t key).2 A' := by
  have hc := hl.chain (slotOf (hashfn key) t.nslots)
  have he := hl.entries (slotOf (hashfn key) t.nslots)
  unfold Mem.hashRemove hashRemove
  dsimp only
  cases hs : unlinkSearch M.cells (hashfn key) key M.cells.length (.slot (slotOf (hashfn key) M.nslots))
      (M.head (hashfn key)) with
  | some r =>
    obtain ⟨ee, c⟩ := r
    have hs' := hs
    rw [Mem.head, hl.nslots] at hs'
    obtain ⟨pre, a, post, has, hac, hm, -, -⟩ := hc.unlinkSearch_some hc.length_le hs'
    have hmem : c.entry ∈ HashTable.chain t (hashfn key) := by
      rw [HashTable.chain, ← he, has]
      exact List.mem_filterMap.2 ⟨a, by simp, by rw [hac]; rfl⟩
    obtain ⟨e, hfe⟩ := Option.isSome_iff_exists.1 (List.find?_isSome.2 ⟨c.entry, hmem, hm⟩)
    rw [hfe]
    exact ⟨rfl, hl.unlink hi hs⟩
  | none =>
    have hs' := hs
    rw [Mem.head, hl.nslots] at hs'
    have hno := hc.unlinkSearch_none hc.length_le hs'
    rw [List.find?_eq_none.2 fun e hmem hm => ?_]
    · exact ⟨rfl, A, hl⟩
    rw [HashTable.chain, ← he] at hmem
    obtain ⟨b, hb, hbe⟩ := List.mem_filterMap.1 hmem
    obtain ⟨d, hd, rfl⟩ := Option.map_eq_some'.1 hbe
    simp [hno b hb d hd] at hm

theorem Layout.step (hl : Layout M t A) (hi : Inv t) (op : HashOp α) :
    ∃ A', Layout (op.applyMem M) (op.apply t) A' := by
  cases op with
  | add key value mode => exact (hl.add hi key value mode).2
  | remove key => exact (hl.remove hi key).2

theorem Layout.run (hl : Layout M t A) (hi : Inv t) (ops : List (HashOp α)) :
    ∃ A', Layout (runMem M ops) (runOps t ops) A' := by
  induction ops generalizing M t A with
  | nil => exact ⟨A, hl⟩
  | cons op ops ih =>
    obtain ⟨A', hl'⟩ := hl.step hi op
    exact ih hl' (hi.run [op])

theorem Layout.new : Layout (Mem.hashNew : Mem α) hashNew (List.replicate 256 []) := by
  refine ⟨rfl, rfl, by simp only [Mem.hashNew, hashNew, List.length_replicate],
    by simp only [hashNew, List.length_replicate], fun j => ?_, fun j => ?_,
    by rw [flatten_replicate_nil]; exact List.nodup_nil⟩
  all_goals simp only [Mem.hashNew, hashNew, List.getD_eq_getElem?_getD, List.getElem?_replicate]
  · split_ifs <;> exact .null
  · split_ifs <;> rfl

/-- Over every run of `hash_add` and `hash_remove` from `hash_new`, the linked cells in memory lay
out the list model's table: every head pointer starts a NULL-terminated chain of distinct cells, no
cell is on two chains, and the cells hold the table's entries chain by chain; so `hash_find` and
the return code of the next `hash_add` or `hash_remove` are the list model's. -/
theorem mem_refines_table (ops : List (HashOp α)) :
    let M := runMem Mem.hashNew ops
    let t := runOps hashNew ops
    (∃ A, Layout M t A) ∧ (∀ key, M.hashFind key = hashFind t key) ∧
      (∀ key value mode, (M.hashAdd key value mode).1 = (hashAdd t key value mode).1) ∧
      ∀ key, (M.hashRemove key).1 = (hashRemove t key).1 := by
  intro M t
  obtain ⟨A, hl⟩ := Layout.new.run Inv.new ops
  have hi : Inv t := Inv.new.run ops
  exact ⟨⟨A, hl⟩, hl.hashFind_eq, fun key value mode => (hl.add hi key value mode).1,
    fun key => (hl.remove hi key).1⟩

end Run

end Disorder.HashTable

import Disorder.Hash.Memory

/-! `hash_foreach` of lib/hash.c over the table in memory. Its inner loop reads `f = e->next` before
it calls the callback, so a callback may unlink the entry it is given with `hash_remove`: the cell
is not freed, and the walk goes on from the pointer it read first. The callback is a function of
the key, the value and the state `u` it is passed, which gives its return value, its new state and
the keys it removes, in order.

Proved: over every run from `hash_new`, with a callback that returns 0 and may remove the entry it
is given, `hash_foreach` passes the callback each entry once, in `hash_keys` order, and leaves the
table with exactly the removed entries taken out (`hashForeach_removing`). The walk over one chain
(`Layout.walk`) carries the layout of `Disorder.Hash.Memory` through each removal, which is
`Layout.unlinkAt` at the cell being visited. -/

namespace Disorder.HashTable

variable {α σ : Type}

/-- A `hash_foreach` callback: its return value, its new state, and the keys it removes. -/
abbrev Callback (α σ : Type) := List UInt8 → Option α → σ → Int × σ × List (List UInt8)

/-- The callback's calls of `hash_remove`, in order. -/
def Mem.removeAll (M : Mem α) (ks : List (List UInt8)) : Mem α := ks.foldl (fun M k => (M.hashRemove k).2) M

@[simp] theorem Mem.removeAll_nil (M : Mem α) : M.removeAll [] = M := rfl

@[simp] theorem Mem.removeAll_singleton (M : Mem α) (k : List UInt8) : M.removeAll [k] = (M.hashRemove k).2 := rfl

/-- The inner loop of `hash_foreach`: `for(e = h->slots[n]; e; e = f) { f = e->next; ... }`, a
non-zero return stopping everything. -/
def walk (cb : Callback α σ) : Nat → Option Nat → Mem α → σ → Int × Mem α × σ
  | 0, _, M, u => (0, M, u)
  | _ + 1, none, M, u => (0, M, u)
  | fuel + 1, some a, M, u =>
    match M.cells[a]? with
    | none => (0, M, u)
    | some e =>
      let r := cb e.entry.key e.entry.value u
      if r.1 ≠ 0 then (r.1, M.removeAll r.2.2, r.2.1) else walk cb fuel e.next (M.removeAll r.2.2) r.2.1

/-- The outer loop of `hash_foreach`, over the slots `ns`. -/
def foreachSlots (cb : Callback α σ) : List Nat → Mem α → σ → Int × Mem α × σ
  | [], M, u => (0, M, u)
  | n :: ns, M, u =>
    let r := walk cb M.cells.length (M.slots.getD n none) M u
    if r.1 ≠ 0 then r else foreachSlots cb ns r.2.1 r.2.2

/-- `hash_foreach`: the chains of slots `0 .. nslots - 1` in turn (`hash_remove` never changes
`nslots`). -/
def Mem.hashForeach (M : Mem α) (cb : Callback α σ) (u : σ) : Int × Mem α × σ :=
  foreachSlots cb (List.range M.nslots) M u

/-- A callback that returns 0, updates its state with `g`, and removes the entry it is given when
`r` says so. -/
def removing (g : List UInt8 → Option α → σ → σ) (r : List UInt8 → Option α → Bool) : Callback α σ :=
  fun k v u => (0, g k v u, if r k v then [k] else [])

/-! ### The first matching cell -/

section First

/-- A list split at its first element with a property is split there only. -/
theorem first_split_unique {β : Type} {P : β → Prop} {pre post pre' post' : List β} {a a' : β}
    (h : pre ++ a :: post = pre' ++ a' :: post') (hp : ∀ b ∈ pre, ¬ P b) (ha : P a)
    (hp' : ∀ b ∈ pre', ¬ P b) (ha' : P a') : pre = pre' ∧ a = a' ∧ post = post' := by
  induction pre generalizing pre' with
  | nil =>
    cases pre' with
    | nil => simpa using h
    | cons b pre' =>
      cases h; exact absurd ha (hp' _ (List.mem_cons_self _ _))
  | cons b pre ih =>
    cases pre' with
    | nil => cases h; exact absurd ha' (hp _ (List.mem_cons_self _ _))
    | cons b' pre' =>
      simp only [List.cons_append, List.cons.injEq] at h
      obtain ⟨rfl, h⟩ := h
      obtain ⟨h1, h2, h3⟩ := ih h (fun x hx => hp x (List.mem_cons_of_mem _ hx))
        (fun x hx => hp' x (List.mem_cons_of_mem _ hx))
      exact ⟨congrArg _ h1, h2, h3⟩

variable {M : Mem α} {t : Hash α} {A : List (List Nat)}

theorem entry_mem_of_addr (hl : Layout M t A) {i a : Nat} {c : Cell α} (ha : a ∈ A.getD i [])
    (hac : M.cells[a]? = some c) : c.entry ∈ t.slots.getD i [] := by
  rw [← hl.entries]
  exact List.mem_filterMap.2 ⟨a, ha, by rw [hac]; rfl⟩

/-- A cell on chain `i` holds an entry whose hash picks chain `i`. -/
theorem Layout.slot_of_mem (hl : Layout M t A) (hi : Inv t) {i a : Nat} {c : Cell α} (ha : a ∈ A.getD i [])
    (hac : M.cells[a]? = some c) : slotOf (hashfn c.entry.key) t.nslots = i := by
  rw [← c.entry.h_eq]; exact hi.placed i c.entry (entry_mem_of_addr hl ha hac)

/-- In a keyed table no cell before `a` on its chain matches `a`'s key. -/
theorem Layout.before_no_match (hl : Layout M t A) (hk : Keyed t) {i : Nat} {kept rest : List Nat} {a : Nat}
    {c : Cell α} (has : A.getD i [] = kept ++ a :: rest) (hac : M.cells[a]? = some c) :
    ∀ b ∈ kept, ∀ d, M.cells[b]? = some d → keyMatches (hashfn c.entry.key) c.entry.key d.entry = false := by
  have hslot := hl.slot_of_mem hk.inv (by rw [has]; simp) hac
  have hnd := List.Nodup.of_append_left (hk.nodup_split (hashfn c.entry.key))
  rw [HashTable.chain, hslot, ← hl.entries, has, entriesAt, List.filterMap_append, List.filterMap_cons, hac,
    Option.map_some', List.map_append, List.map_cons] at hnd
  intro b hb d hd
  have hdm : d.entry.h ∈ (List.filterMap (fun a => M.cells[a]?.map Cell.entry) kept).map Entry.h :=
    List.mem_map_of_mem _ (List.mem_filterMap.2 ⟨b, hb, by rw [hd]; rfl⟩)
  rw [keyMatches_eq, ← c.entry.h_eq]
  simpa using fun h => List.disjoint_of_nodup_append hnd hdm (by rw [h]; exact List.mem_cons_self _ _)

/-- `hash_remove` of the key of a cell with no match before it on its chain unlinks that cell. -/
theorem Layout.hashRemove_at (hl : Layout M t A) {key : List UInt8} {pre post : List Nat} {a : Nat}
    {c : Cell α} (has : A.getD (slotOf (hashfn key) t.nslots) [] = pre ++ a :: post) (hac : M.cells[a]? = some c)
    (hm : keyMatches (hashfn key) key c.entry)
    (hpre : ∀ b ∈ pre, ∀ d, M.cells[b]? = some d → keyMatches (hashfn key) key d.entry = false) :
    M.hashRemove key = (0, { M.store ((pre.getLast?.map Link.next).getD (.slot (slotOf (hashfn key) M.nslots))) c.next with
                               nitems := M.nitems - 1 }) ∧
      hashRemove t key = (0, { t with slots := t.slots.modify (List.eraseP (keyMatches (hashfn key) key)) (slotOf (hashfn key) t.nslots),
                                      nitems := t.nitems - 1 }) := by
  have hc := hl.chain (slotOf (hashfn key) t.nslots)
  rw [has, ← hl.nslots] at hc
  constructor
  · unfold Mem.hashRemove
    dsimp only
    cases hs : unlinkSearch M.cells (hashfn key) key M.cells.length (.slot (slotOf (hashfn key) M.nslots))
        (M.head (hashfn key)) with
    | none =>
      have := hc.unlinkSearch_none hc.length_le hs a (by simp) c hac
      rw [hm] at this; cases this
    | some r =>
      obtain ⟨ee, c'⟩ := r
      obtain ⟨pre', a', post', has', hac', hm', hpre', rfl⟩ := hc.unlinkSearch_some hc.length_le hs
      obtain ⟨rfl, rfl, rfl⟩ := first_split_unique (P := fun b => ∃ d, M.cells[b]? = some d ∧
          keyMatches (hashfn key) key d.entry) has'
        (fun b hb ⟨d, hd, hdm⟩ => by rw [hpre b hb d hd] at hdm; cases hdm) ⟨c, hac, hm⟩
        (fun b hb ⟨d, hd, hdm⟩ => by rw [hpre' b hb d hd] at hdm; cases hdm) ⟨c', hac', hm'⟩
      rw [hac] at hac'; cases hac'
      rfl
  · have hmem := entry_mem_of_addr hl (by rw [has]; simp) hac
    obtain ⟨e, hfe⟩ := Option.isSome_iff_exists.1 (List.find?_isSome.2 ⟨c.entry, hmem, hm⟩)
    unfold hashRemove
    dsimp only
    rw [HashTable.chain, hfe]

end First

/-! ### The walk over one chain -/

/-- The table after `hash_remove` of the entries of `es` that `r` picks, in order. -/
def removePicked (r : List UInt8 → Option α → Bool) (es : List (Entry α)) (t : Hash α) : Hash α :=
  (es.filter fun e => r e.key e.value).foldl (fun t e => (hashRemove t e.key).2) t

section Walk

variable {M : Mem α} {t : Hash α} {A : List (List Nat)} (g : List UInt8 → Option α → σ → σ)
  (r : List UInt8 → Option α → Bool)

theorem removePicked_cons (e : Entry α) (es : List (Entry α)) (t : Hash α) :
    removePicked r (e :: es) t = removePicked r es (if r e.key e.value then (hashRemove t e.key).2 else t) := by
  by_cases h : r e.key e.value <;> simp [removePicked, h]

theorem removePicked_append (es es' : List (Entry α)) (t : Hash α) :
    removePicked r (es ++ es') t = removePicked r es' (removePicked r es t) := by
  simp [removePicked, List.filter_append, List.foldl_append]

theorem Keyed.removePicked (hk : Keyed t) (es : List (Entry α)) : Keyed (removePicked r es t) := by
  induction es generalizing t with
  | nil => exact hk
  | cons e es ih =>
    rw [removePicked_cons]
    split
    exacts [ih (hk.remove e.key).1, ih hk]

/-- After `hash_remove`, the map is cleared at the key's hash, whether the key was there or not. -/
theorem Keyed.view_hashRemove (hk : Keyed t) (key : List UInt8) (n : UInt64) :
    view (hashRemove t key).2 n = if n = hashfn key then none else view t n := by
  rw [(hk.remove key).2.2, mapRemove]
  split
  · simp [Function.update_apply]
  · rename_i h
    by_cases hn : n = hashfn key
    · rw [if_pos hn, hn, ← h]
    · rw [if_neg hn]

/-- After the picked entries are removed, the map is cleared at the hash of each of them. -/
theorem Keyed.view_removePicked (hk : Keyed t) (es : List (Entry α)) (n : UInt64) :
    view (HashTable.removePicked r es t) n = if es.any (fun e => r e.key e.value && e.h == n) then none else view t n := by
  induction es generalizing t with
  | nil => rfl
  | cons e es ih =>
    rw [removePicked_cons]
    by_cases hr : r e.key e.value
    · rw [if_pos hr, ih (hk.remove e.key).1, hk.view_hashRemove, ← e.h_eq]
      by_cases hn : n = e.h
      · subst hn; simp [hr]
      · simp [hr, hn, beq_eq_false_iff_ne.2 (Ne.symm hn)]
    · rw [if_neg hr, ih hk]
      simp [hr]

/-- Removing the picked entries of the whole table: each hash code keeps its entry unless the
entry was picked. -/
theorem Keyed.view_removePicked_entries (hk : Keyed t) (n : UInt64) :
    view (HashTable.removePicked r (entries t) t) n =
      ((entries t).find? (·.h == n)).bind fun e => if r e.key e.value then none else some e.value := by
  rw [hk.view_removePicked]
  cases hf : (entries t).find? (·.h == n) with
  | none =>
    have hno : (entries t).any (fun e => r e.key e.value && e.h == n) = false := by
      simpa using fun e he _ => by simpa using List.find?_eq_none.1 hf e he
    rw [hno, if_neg Bool.false_ne_true, view, hf]; rfl
  | some e =>
    obtain ⟨he, hn⟩ := (find?_h_eq_some hk.nodup).1 hf
    have hany : (entries t).any (fun e => r e.key e.value && e.h == n) = r e.key e.value := by
      cases hr : r e.key e.value
      · simpa using fun e' he' hr' hn' => by
          cases ((find?_h_eq_some hk.nodup).2 ⟨he', hn'⟩).symm.trans hf
          rw [hr] at hr'; cases hr'
      · exact List.any_eq_true.2 ⟨e, he, by simp [hr, hn]⟩
    rw [hany, view, hf, Option.some_bind, Option.map_some']

theorem walk_none (cb : Callback α σ) (fuel : Nat) (M : Mem α) (u : σ) : walk cb fuel none M u = (0, M, u) := by
  cases fuel <;> rfl

theorem walk_removing {a : Nat} {c : Cell α} (hac : M.cells[a]? = some c) (fuel : Nat) (u : σ) :
    walk (removing g r) (fuel + 1) (some a) M u =
      walk (removing g r) fuel c.next (M.removeAll (if r c.entry.key c.entry.value then [c.entry.key] else []))
        (g c.entry.key c.entry.value u) := by
  simp [walk, hac, removing]

/-- The walk over the rest `rest` of chain `i`, its first cells `kept` visited and kept: the
callback sees the entries of `rest` in order, and the memory lays out the table with the picked
ones removed; the other chains keep their addresses and their entries. -/
theorem Layout.walk (hl : Layout M t A) (hk : Keyed t) {i : Nat} {kept rest : List Nat} {p : Option Nat}
    (has : A.getD i [] = kept ++ rest) (hc : Chain M.cells p rest) {fuel : Nat} (hf : rest.length ≤ fuel)
    (u : σ) :
    let out := walk (removing g r) fuel p M u
    out.1 = 0 ∧ out.2.2 = (entriesAt M.cells rest).foldl (fun u e => g e.key e.value u) u ∧
      ∃ A', Layout out.2.1 (removePicked r (entriesAt M.cells rest) t) A' ∧ ∀ j, i ≠ j →
        A'.getD j [] = A.getD j [] ∧ (removePicked r (entriesAt M.cells rest) t).slots.getD j [] = t.slots.getD j [] := by
  induction rest generalizing M t A kept p fuel u with
  | nil =>
    cases hc
    rw [walk_none]
    exact ⟨rfl, rfl, A, hl, fun _ _ => ⟨rfl, rfl⟩⟩
  | cons a rest ih =>
    obtain ⟨rfl, c, hac, hrest⟩ := Chain.cons_iff.1 hc
    obtain ⟨fuel, rfl⟩ : ∃ f, fuel = f + 1 := ⟨fuel - 1, by simp only [List.length_cons] at hf; omega⟩
    have hf' : rest.length ≤ fuel := by simpa using hf
    dsimp only
    rw [walk_removing g r hac, entriesAt_cons_of hac, removePicked_cons, List.foldl_cons]
    by_cases hr : r c.entry.key c.entry.value
    case neg =>
      rw [if_neg hr, if_neg hr, Mem.removeAll_nil]
      exact ih hl hk (show A.getD i [] = (kept ++ [a]) ++ rest by rw [has]; simp) hrest hf' _
    case pos =>
      rw [if_pos hr, if_pos hr]
      have hmem : a ∈ A.getD i [] := by rw [has]; simp
      have hkey : slotOf (hashfn c.entry.key) t.nslots = i := hl.slot_of_mem hk.inv hmem hac
      have has' : A.getD (slotOf (hashfn c.entry.key) t.nslots) [] = kept ++ a :: rest := by rw [hkey, has]
      have hm : keyMatches (hashfn c.entry.key) c.entry.key c.entry := by simp [keyMatches]
      have hpre := hl.before_no_match hk has hac
      obtain ⟨hM, ht⟩ := hl.hashRemove_at has' hac hm hpre
      have hl' := hl.unlinkAt hk.inv has' hac hm hpre
      have hk' := (hk.remove c.entry.key).1
      rw [ht, hkey] at hk'
      have hi : i < M.slots.length := by rw [hl.length, ← hkey]; exact hk.inv.slot_lt _
      have hchain := hl.chain i
      rw [has] at hchain
      obtain ⟨-, -, h3, h4⟩ := Chain.unlinked hi hchain hac
      have hdis : ∀ x ∈ rest, x ∉ kept := fun x hx hxk =>
        List.disjoint_of_nodup_append hchain.nodup hxk (List.mem_cons_of_mem _ hx)
      rw [Mem.removeAll_singleton, hM, ht, hl.nslots, hkey]
      rw [hl.nslots, hkey] at hl'
      have hA : (A.modify (fun _ => kept ++ rest) i).getD i [] = kept ++ rest := by
        rw [getD_modify_self _ (by rw [hl.addrs, ← hkey]; exact hk.inv.slot_lt _)]
      obtain ⟨h1, h2, A', hl'', hfr⟩ := ih hl' hk' hA
        (hrest.frame fun x hx => by rw [h3 x (hdis x hx)]) hf' (g c.entry.key c.entry.value u)
      rw [entriesAt_congr fun x _ => h4 x] at h2 hl'' hfr
      refine ⟨h1, h2, A', hl'', fun j hj => ?_⟩
      obtain ⟨hfa, hft⟩ := hfr j hj
      exact ⟨hfa.trans (getD_modify_ne _ hj), hft.trans (getD_modify_ne _ hj)⟩

/-- The outer loop over distinct slots `ns`: the callback sees the entries of those chains, chain
after chain, and the memory lays out the table with the picked ones removed. -/
theorem Layout.foreachSlots (hl : Layout M t A) (hk : Keyed t) {ns : List Nat} (hns : ns.Nodup) (u : σ) :
    let out := foreachSlots (removing g r) ns M u
    let es := ns.flatMap fun n => t.slots.getD n []
    out.1 = 0 ∧ out.2.2 = es.foldl (fun u e => g e.key e.value u) u ∧ ∃ A', Layout out.2.1 (removePicked r es t) A' := by
  induction ns generalizing M t A u with
  | nil => exact ⟨rfl, rfl, A, hl⟩
  | cons n ns ih =>
    obtain ⟨hn, hns⟩ := List.nodup_cons.1 hns
    have hc := hl.chain n
    obtain ⟨h1, h2, A', hl', hfr⟩ := hl.walk g r hk (show A.getD n [] = [] ++ A.getD n [] from rfl) hc hc.length_le u
    rw [hl.entries] at h2 hl' hfr
    have hes : (ns.flatMap fun m => (removePicked r (t.slots.getD n []) t).slots.getD m []) =
        ns.flatMap fun m => t.slots.getD m [] :=
      List.flatMap_congr fun m hm => (hfr m fun h => hn (h ▸ hm)).2
    obtain ⟨h1', h2', A'', hl''⟩ := ih hl' (hk.removePicked r _) hns
      (HashTable.walk (removing g r) M.cells.length (M.slots.getD n none) M u).2.2
    rw [hes] at h2' hl''
    dsimp only
    rw [HashTable.foreachSlots, if_neg (by simpa using h1), List.flatMap_cons, List.foldl_append, ← h2,
      removePicked_append]
    exact ⟨h1', h2', A'', hl''⟩

end Walk

/-- Over every run of `hash_add` and `hash_remove` from `hash_new`, with a callback that returns 0
and may remove the entry it is given: `hash_foreach` returns 0, passes the callback every entry
once, chain after chain, which is the order of `hash_keys`, and leaves the memory laying out the
table from which the removed entries were taken out by `hash_remove`, one after another: there
`hash_find` finds each entry the callback kept, and none it removed. -/
theorem hashForeach_removing (ops : List (HashOp α)) (g : List UInt8 → Option α → σ → σ)
    (r : List UInt8 → Option α → Bool) (u : σ) :
    let M := runMem Mem.hashNew ops
    let t := runOps hashNew ops
    let out := M.hashForeach (removing g r) u
    out.1 = 0 ∧ out.2.2 = (entries t).foldl (fun u e => g e.key e.value u) u ∧
      (entries t).map Entry.key = hashKeys t ∧
      (∃ A, Layout out.2.1 (((entries t).filter fun e => r e.key e.value).foldl
        (fun t e => (hashRemove t e.key).2) t) A) ∧
      ∀ key, out.2.1.hashFind key =
        ((entries t).find? (·.h == hashfn key)).bind fun e => if r e.key e.value then none else some e.value := by
  obtain ⟨A, hl⟩ := Layout.new.run Inv.new ops
  have hk := Keyed.new.run ops
  have hes : ((List.range (runMem Mem.hashNew ops).nslots).flatMap fun n => (runOps hashNew ops).slots.getD n []) =
      entries (runOps hashNew ops) := by
    rw [hl.nslots, ← hk.1.inv.length, flatMap_range_getD]; rfl
  obtain ⟨h1, h2, hl'⟩ := hl.foreachSlots g r hk.1 (List.nodup_range (runMem Mem.hashNew ops).nslots) u
  rw [hes] at h2 hl'
  obtain ⟨A', hl'⟩ := hl'
  refine ⟨h1, h2, by rw [hashKeys_eq hk.1.inv.length]; rfl, ⟨A', hl'⟩, fun key => (hl'.hashFind_eq key).trans ?_⟩
  rw [(hk.1.removePicked r _).hashFind_eq, hk.1.view_removePicked_entries]

end Disorder.HashTable

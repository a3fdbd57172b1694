import Disorder.Hash.Invariant
import Mathlib.Data.List.Nodup

/-! What the table of lib/hash.c implements, seen through `hash_add`, `hash_remove` and
`hash_find`: a finite map keyed by the key's `hashfn`, not by the key. Every chain search stops at
`e->h == n || !strcmp(e->key, key)`, an entry's key having its stored hash, so two keys with one
hash are one key to the table.

Proved: a new entry is only linked when no entry has its hash, so stored hashes stay distinct
over every run (`Keyed`); then each operation's return code, and every `hash_find`, agree with
the same operation on the map from hash codes to values (`hash_refines_map`), and `hash_keys`
never lists a key twice (`hashKeys_nodup`). -/

namespace Disorder.HashTable

variable {α : Type}

/-! ### Entries with distinct hashes -/

section Entries

/-- With distinct hashes, the entry a hash code finds is the one entry with that code. -/
theorem find?_h_eq_some {l : List (Entry α)} (hl : (l.map Entry.h).Nodup) {n : UInt64}
    {e : Entry α} : l.find? (·.h == n) = some e ↔ e ∈ l ∧ e.h = n := by
  refine ⟨fun h => ⟨List.mem_of_find?_eq_some h, by simpa using List.find?_some h⟩,
    fun ⟨he, hn⟩ => ?_⟩
  induction l with
  | nil => cases he
  | cons x xs ih =>
    simp only [List.map_cons, List.nodup_cons, List.mem_map] at hl
    by_cases hx : x.h = n
    · rw [List.find?_cons_of_pos _ (by simpa using hx)]
      rcases List.mem_cons.1 he with rfl | he
      · rfl
      · exact absurd ⟨e, he, hn.trans hx.symm⟩ hl.1
    · rw [List.find?_cons_of_neg _ (by simpa using hx)]
      rcases List.mem_cons.1 he with rfl | he
      · exact absurd hn hx
      · exact ih hl.2 ⟨he, hn⟩ he

/-- With distinct hashes, what a hash code finds depends only on which entries of that code are
there. -/
theorem find?_h_congr {l l' : List (Entry α)} (hl : (l.map Entry.h).Nodup)
    (hl' : (l'.map Entry.h).Nodup) {n : UInt64} (hmem : ∀ e : Entry α, e.h = n → (e ∈ l ↔ e ∈ l')) :
    l.find? (·.h == n) = l'.find? (·.h == n) := by
  cases h : l.find? (·.h == n) with
  | some e =>
    obtain ⟨he, hn⟩ := (find?_h_eq_some hl).1 h
    exact ((find?_h_eq_some hl').2 ⟨(hmem e hn).1 he, hn⟩).symm
  | none =>
    cases h' : l'.find? (·.h == n) with
    | none => rfl
    | some e =>
      obtain ⟨he, hn⟩ := (find?_h_eq_some hl').1 h'
      rw [(find?_h_eq_some hl).2 ⟨(hmem e hn).2 he, hn⟩] at h; cases h

/-- The chains with chain `i` taken out, and chain `i` changed by `f`. -/
theorem flatten_modify_perm {β : Type} {ns : List (List β)} {i : Nat} (hi : i < ns.length)
    (f : List β → List β) : (ns.modify f i).flatten.Perm (f (ns.getD i []) ++ (ns.set i []).flatten) := by
  induction ns generalizing i with
  | nil => simp at hi
  | cons x xs ih =>
    cases i with
    | zero => simp
    | succ i =>
      simp only [List.modify_succ_cons, List.flatten_cons, List.set_cons_succ, List.getD_cons_succ]
      exact ((ih (by simpa using hi)).append_left x).trans (List.perm_append_comm_assoc _ _ _)

theorem map_h_setFirst (p : Entry α → Bool) (v : α) (l : List (Entry α)) :
    (setFirst p v l).map Entry.h = l.map Entry.h := by
  induction l with
  | nil => rfl
  | cons e es ih => unfold setFirst; split_ifs <;> simp [ih]

/-- With distinct hashes, storing into the entry of code `n` changes that entry's value and
nothing else. -/
theorem mem_setFirst {l : List (Entry α)} (hl : (l.map Entry.h).Nodup) {n : UInt64} {e₀ : Entry α}
    (h₀ : l.find? (·.h == n) = some e₀) (v : α) (x : Entry α) :
    x ∈ setFirst (·.h == n) v l ↔ (x ∈ l ∧ x.h ≠ n) ∨ x = { e₀ with value := some v } := by
  induction l with
  | nil => cases h₀
  | cons y ys ih =>
    simp only [List.map_cons, List.nodup_cons, List.mem_map] at hl
    unfold setFirst
    by_cases hy : y.h = n
    · rw [if_pos (by simpa using hy)]
      rw [List.find?_cons_of_pos _ (by simpa using hy)] at h₀
      cases h₀
      have hys : ∀ z ∈ ys, z.h ≠ n := fun z hz hzn => hl.1 ⟨z, hz, hzn.trans hy.symm⟩
      rw [List.mem_cons, List.mem_cons]
      constructor
      · rintro (rfl | hx)
        exacts [.inr rfl, .inl ⟨.inr hx, hys x hx⟩]
      · rintro (⟨rfl | hx, hxn⟩ | rfl)
        exacts [absurd hy hxn, .inr hx, .inl rfl]
    · rw [if_neg (by simpa using hy)]
      rw [List.find?_cons_of_neg _ (by simpa using hy)] at h₀
      rw [List.mem_cons, ih hl.2 h₀, List.mem_cons]
      constructor
      · rintro (rfl | ⟨hx, hxn⟩ | rfl)
        · exact .inl ⟨.inl rfl, hy⟩
        · exact .inl ⟨.inr hx, hxn⟩
        · exact .inr rfl
      · rintro (⟨rfl | hx, hxn⟩ | rfl)
        · exact .inl rfl
        · exact .inr (.inl ⟨hx, hxn⟩)
        · exact .inr (.inr rfl)

/-- With distinct hashes, unlinking the entry of code `n` leaves the others. -/
theorem mem_eraseP_h {l : List (Entry α)} (hl : (l.map Entry.h).Nodup) {n : UInt64} (x : Entry α) :
    x ∈ l.eraseP (·.h == n) ↔ x ∈ l ∧ x.h ≠ n := by
  induction l with
  | nil => simp
  | cons y ys ih =>
    simp only [List.map_cons, List.nodup_cons, List.mem_map] at hl
    by_cases hy : y.h = n
    · rw [List.eraseP_cons_of_pos (by simpa using hy)]
      constructor
      · exact fun hx => ⟨List.mem_cons_of_mem _ hx, fun hxn => hl.1 ⟨x, hx, hxn.trans hy.symm⟩⟩
      · rintro ⟨hx, hxn⟩
        rcases List.mem_cons.1 hx with rfl | hx
        exacts [absurd hy hxn, hx]
    · rw [List.eraseP_cons_of_neg (by simpa using hy), List.mem_cons, ih hl.2, List.mem_cons]
      constructor
      · rintro (rfl | ⟨hx, hxn⟩)
        exacts [⟨.inl rfl, hy⟩, ⟨.inr hx, hxn⟩]
      · rintro ⟨rfl | hx, hxn⟩
        exacts [.inl rfl, .inr ⟨hx, hxn⟩]

end Entries

/-! ### The map a table implements -/

section View

/-- The entries of a table, chain by chain. -/
def entries (t : Hash α) : List (Entry α) := t.slots.flatten

/-- The map a table implements: each hash code to the value of the entry stored under it
(`some none` for a value never written), `none` where there is no such entry. -/
def view (t : Hash α) (n : UInt64) : Option (Option α) :=
  ((entries t).find? (·.h == n)).map Entry.value

/-- What a table keeps for the refinement: its shape, and distinct stored hashes. -/
structure Keyed (t : Hash α) : Prop where
  inv : Inv t
  nodup : ((entries t).map Entry.h).Nodup

variable {t : Hash α}

theorem keyMatches_hashfn (key : List UInt8) :
    keyMatches (hashfn key) key = fun e : Entry α => e.h == hashfn key :=
  funext (keyMatches_eq key)

/-- The chains other than the one hash `n` picks. -/
def others (t : Hash α) (n : UInt64) : List (Entry α) := (t.slots.set (slotOf n t.nslots) []).flatten

/-- A table whose chain `slotOf n` is changed by `f` holds that chain and the others. -/
theorem entries_modify_perm (h : Inv t) (n : UInt64) (f : List (Entry α) → List (Entry α)) :
    (t.slots.modify f (slotOf n t.nslots)).flatten.Perm (f (chain t n) ++ others t n) :=
  flatten_modify_perm (by rw [h.length]; exact slotOf_lt n _ h.pos) f

theorem entries_perm (h : Inv t) (n : UInt64) : (entries t).Perm (chain t n ++ others t n) := by
  simpa [entries] using entries_modify_perm h n id

/-- An entry of hash `n` is on the chain `n` picks, if it is anywhere. -/
theorem mem_chain_iff (h : Inv t) {e : Entry α} {n : UInt64} (hn : e.h = n) :
    e ∈ chain t n ↔ e ∈ entries t := by
  refine ⟨fun he => (entries_perm h n).symm.subset (List.mem_append_left _ he), fun he => ?_⟩
  obtain ⟨l, hl, hel⟩ := List.mem_flatten.1 he
  obtain ⟨s, hs, rfl⟩ := List.getElem_of_mem hl
  have hget : t.slots.getD s [] = t.slots[s] := by simp [List.getD_eq_getElem?_getD, hs]
  have hslot := h.placed s e (hget ▸ hel)
  rw [chain, ← hn, hslot, hget]; exact hel

theorem mem_entries_modify (h : Inv t) (n : UInt64) (f : List (Entry α) → List (Entry α)) (x : Entry α) :
    x ∈ (t.slots.modify f (slotOf n t.nslots)).flatten ↔ x ∈ f (chain t n) ∨ x ∈ others t n := by
  rw [(entries_modify_perm h n f).mem_iff, List.mem_append]

theorem mem_entries (h : Inv t) (n : UInt64) (x : Entry α) :
    x ∈ entries t ↔ x ∈ chain t n ∨ x ∈ others t n := by
  rw [(entries_perm h n).mem_iff, List.mem_append]

theorem Keyed.nodup_split (hk : Keyed t) (n : UInt64) :
    ((chain t n).map Entry.h ++ (others t n).map Entry.h).Nodup := by
  rw [← List.map_append]; exact ((entries_perm hk.inv n).map Entry.h).nodup_iff.1 hk.nodup

/-- The other chains hold no entry of hash `n`. -/
theorem Keyed.others_h (hk : Keyed t) {n : UInt64} {x : Entry α} (hx : x ∈ others t n) : x.h ≠ n := by
  intro hn
  have hc : x ∈ chain t n :=
    (mem_chain_iff hk.inv hn).2 ((entries_perm hk.inv n).symm.subset (List.mem_append_right _ hx))
  exact List.disjoint_of_nodup_append (hk.nodup_split n) (List.mem_map_of_mem Entry.h hc)
    (List.mem_map_of_mem Entry.h hx)

theorem Keyed.chain_find_h (hk : Keyed t) (n : UInt64) :
    (chain t n).find? (·.h == n) = (entries t).find? (·.h == n) :=
  find?_h_congr (List.Nodup.of_append_left (hk.nodup_split n)) hk.nodup fun _ hn => mem_chain_iff hk.inv hn

theorem Keyed.chain_find (hk : Keyed t) (key : List UInt8) :
    (chain t (hashfn key)).find? (keyMatches (hashfn key) key) =
      (entries t).find? (·.h == hashfn key) := by
  rw [keyMatches_hashfn]; exact hk.chain_find_h _

/-- `hash_find` reads the map at the key's hash. -/
theorem Keyed.hashFind_eq (hk : Keyed t) (key : List UInt8) : hashFind t key = view t (hashfn key) := by
  rw [hashFind, hk.chain_find]; rfl

theorem view_congr {t' : Hash α} (hk : Keyed t) (hk' : Keyed t') {m : UInt64}
    (hmem : ∀ x : Entry α, x.h = m → (x ∈ entries t' ↔ x ∈ entries t)) : view t' m = view t m := by
  unfold view; rw [find?_h_congr hk'.nodup hk.nodup hmem]

theorem view_eq_none {n : UInt64} : view t n = none ↔ (entries t).find? (·.h == n) = none :=
  Option.map_eq_none'

end View

/-! ### Each operation moves the map at one hash code -/

section Step

variable {t : Hash α}

/-- A change to the chain of hash `n` that keeps hashes distinct and every entry of another hash
keeps the table keyed, and moves the map at `n` only, to what the changed chain holds. -/
theorem Keyed.modify (hk : Keyed t) (n : UInt64) {f : List (Entry α) → List (Entry α)} {k : Nat}
    (hinv : Inv { t with slots := t.slots.modify f (slotOf n t.nslots), nitems := k })
    (hnd : ((f (chain t n)).map Entry.h).Nodup)
    (hkeep : ∀ x : Entry α, x.h ≠ n → (x ∈ f (chain t n) ↔ x ∈ chain t n)) :
    let t' := { t with slots := t.slots.modify f (slotOf n t.nslots), nitems := k }
    Keyed t' ∧ view t' = Function.update (view t) n (((f (chain t n)).find? (·.h == n)).map Entry.value) := by
  intro t'
  have hmem : ∀ x, x ∈ entries t' ↔ x ∈ f (chain t n) ∨ x ∈ others t n := mem_entries_modify hk.inv n f
  have hsplit := hk.nodup_split n
  have hnd' : ((entries t').map Entry.h).Nodup := by
    refine ((entries_modify_perm hk.inv n f).map Entry.h).nodup_iff.2 ?_
    rw [List.map_append]
    refine List.Nodup.append hnd (List.Nodup.of_append_right hsplit) fun y hy hy' => ?_
    obtain ⟨x, hx, rfl⟩ := List.mem_map.1 hy
    obtain ⟨z, hz, hzx⟩ := List.mem_map.1 hy'
    by_cases hxn : x.h = n
    · exact hk.others_h hz (hzx.trans hxn)
    · exact List.disjoint_of_nodup_append hsplit (List.mem_map_of_mem Entry.h ((hkeep x hxn).1 hx))
        (hzx ▸ List.mem_map_of_mem Entry.h hz)
  have hk' : Keyed t' := ⟨hinv, hnd'⟩
  refine ⟨hk', funext fun m => ?_⟩
  by_cases hm : m = n
  · subst hm
    rw [Function.update_same, view, find?_h_congr hnd' hnd fun x hx => ?_]
    rw [hmem, or_iff_left fun ho => hk.others_h ho hx]
  · rw [Function.update_noteq hm]
    refine view_congr hk hk' fun x hx => ?_
    rw [hmem, mem_entries hk.inv n, hkeep x fun h => hm (hx ▸ h)]

/-- `hash_add` of an absent hash: the new entry heads its chain. -/
theorem Keyed.pushed (hk : Keyed t) (e : Entry α) (hf : view t e.h = none) :
    let t' := { t with slots := t.slots.modify (e :: ·) (slotOf e.h t.nslots), nitems := t.nitems + 1 }
    Keyed t' ∧ view t' = Function.update (view t) e.h (some e.value) := by
  have hnone : ∀ x ∈ chain t e.h, x.h ≠ e.h := fun x hx hxn => by
    have := List.find?_eq_none.1 (view_eq_none.1 hf) x ((mem_chain_iff hk.inv hxn).1 hx)
    simp [hxn] at this
  have hc := List.Nodup.of_append_left (hk.nodup_split e.h)
  obtain ⟨hk', hv⟩ := hk.modify e.h (hk.inv.pushed e)
    (List.nodup_cons.2 ⟨fun hm => by obtain ⟨x, hx, hxn⟩ := List.mem_map.1 hm; exact hnone x hx hxn, hc⟩)
    fun x hx => by rw [List.mem_cons, or_iff_right fun h => hx (congrArg Entry.h h)]
  refine ⟨hk', hv.trans ?_⟩
  simp only [List.find?_cons, beq_self_eq_true, Option.map_some']

/-- `hash_add` of a present hash with a value: the value is copied into that hash's entry. -/
theorem Keyed.stored (hk : Keyed t) {n : UInt64} {e₀ : Entry α}
    (hf : (entries t).find? (·.h == n) = some e₀) (v : α) :
    let t' := { t with slots := t.slots.modify (setFirst (·.h == n) v) (slotOf n t.nslots) }
    Keyed t' ∧ view t' = Function.update (view t) n (some (some v)) := by
  have hc := List.Nodup.of_append_left (hk.nodup_split n)
  have hf' := (hk.chain_find_h n).trans hf
  have hn : e₀.h = n := by simpa using List.find?_some hf
  obtain ⟨hk', hvw⟩ := hk.modify n (hk.inv.stored (·.h == n) v (slotOf_lt n _ hk.inv.pos))
    (by rw [map_h_setFirst]; exact hc)
    fun x hx => by rw [mem_setFirst hc hf', or_iff_left fun h => hx (by subst h; exact hn), and_iff_left hx]
  refine ⟨hk', hvw.trans ?_⟩
  rw [(find?_h_eq_some (by rw [map_h_setFirst]; exact hc)).2 ⟨(mem_setFirst hc hf' _ _).2 (.inr rfl), hn⟩]
  rfl

/-- `hash_remove` of a present hash: that hash's entry is unlinked. -/
theorem Keyed.unlinked (hk : Keyed t) {n : UInt64} {e₀ : Entry α}
    (hf : (entries t).find? (·.h == n) = some e₀) :
    let t' := { t with slots := t.slots.modify (List.eraseP (·.h == n)) (slotOf n t.nslots),
                       nitems := t.nitems - 1 }
    Keyed t' ∧ view t' = Function.update (view t) n none := by
  have hc := List.Nodup.of_append_left (hk.nodup_split n)
  obtain ⟨hk', hvw⟩ := hk.modify n (hk.inv.unlinked (slotOf_lt n _ hk.inv.pos) ((hk.chain_find_h n).trans hf))
    ((List.eraseP_sublist _).map Entry.h |>.nodup hc)
    fun x hx => by rw [mem_eraseP_h hc, and_iff_left hx]
  refine ⟨hk', hvw.trans ?_⟩
  rw [List.find?_eq_none.2 fun x hx => by simpa using ((mem_eraseP_h hc x).1 hx).2]
  rfl

theorem Keyed.grown (hk : Keyed t) : Keyed (grow t) ∧ view (grow t) = view t := by
  have hp := (grow_spec t hk.inv.pos hk.inv.length).2.2.2.2
  have hk' : Keyed (grow t) := ⟨hk.inv.grown, (hp.map Entry.h).nodup_iff.2 hk.nodup⟩
  exact ⟨hk', funext fun _ => view_congr hk hk' fun _ _ => hp.mem_iff⟩

end Step

/-! ### The table refines the map -/

section Refinement

/-- `hash_add` on the map from hash codes to values. -/
def mapAdd (m : UInt64 → Option (Option α)) (key : List UInt8) (value : Option α) (mode : Mode) :
    Int × (UInt64 → Option (Option α)) :=
  let n := hashfn key
  match m n with
  | some _ =>
    if mode = .insert then (-1, m) else
    match value with
    | some v => (0, Function.update m n (some (some v)))
    | none => (0, m)
  | none => if mode = .replace then (-1, m) else (0, Function.update m n (some value))

/-- `hash_remove` on the map. -/
def mapRemove (m : UInt64 → Option (Option α)) (key : List UInt8) : Int × (UInt64 → Option (Option α)) :=
  match m (hashfn key) with
  | some _ => (0, Function.update m (hashfn key) none)
  | none => (-1, m)

def HashOp.onMap (m : UInt64 → Option (Option α)) : HashOp α → Int × (UInt64 → Option (Option α))
  | .add key value mode => mapAdd m key value mode
  | .remove key => mapRemove m key

/-- The map after a run of operations from the empty map. -/
def mapRun (ops : List (HashOp α)) : UInt64 → Option (Option α) :=
  ops.foldl (fun m op => (op.onMap m).2) fun _ => none

variable {t : Hash α}

theorem Keyed.add (hk : Keyed t) (key : List UInt8) (value : Option α) (mode : Mode) :
    Keyed (hashAdd t key value mode).2 ∧ (hashAdd t key value mode).1 = (mapAdd (view t) key value mode).1 ∧
      view (hashAdd t key value mode).2 = (mapAdd (view t) key value mode).2 := by
  unfold hashAdd mapAdd
  dsimp only
  rw [hk.chain_find key]
  cases hf : (entries t).find? (·.h == hashfn key) with
  | some e₀ =>
    rw [show view t (hashfn key) = some e₀.value by rw [view, hf]; rfl]
    dsimp only
    by_cases hmode : mode = .insert
    · simp only [hmode, if_true, and_true]; exact hk
    rw [if_neg hmode, if_neg hmode]
    cases value with
    | none => exact ⟨hk, rfl, rfl⟩
    | some v =>
      rw [keyMatches_hashfn]
      obtain ⟨hk', hv⟩ := hk.stored hf v
      exact ⟨hk', rfl, hv⟩
  | none =>
    rw [view_eq_none.2 hf]
    dsimp only
    by_cases hmode : mode = .replace
    · simp only [hmode, if_true, and_true]; exact hk
    rw [if_neg hmode, if_neg hmode]
    have hg : Keyed (if t.nitems ≥ t.nslots then grow t else t) ∧
        view (if t.nitems ≥ t.nslots then grow t else t) = view t := by
      split_ifs
      exacts [hk.grown, ⟨hk, rfl⟩]
    obtain ⟨hk', hv⟩ := hg.1.pushed ⟨key, hashfn key, value, rfl⟩ (hg.2 ▸ view_eq_none.2 hf)
    exact ⟨hk', rfl, hv.trans (by rw [hg.2])⟩

theorem Keyed.remove (hk : Keyed t) (key : List UInt8) :
    Keyed (hashRemove t key).2 ∧ (hashRemove t key).1 = (mapRemove (view t) key).1 ∧
      view (hashRemove t key).2 = (mapRemove (view t) key).2 := by
  unfold hashRemove mapRemove
  dsimp only
  rw [hk.chain_find key]
  cases hf : (entries t).find? (·.h == hashfn key) with
  | some e₀ =>
    rw [show view t (hashfn key) = some e₀.value by rw [view, hf]; rfl, keyMatches_hashfn]
    obtain ⟨hk', hv⟩ := hk.unlinked hf
    exact ⟨hk', rfl, hv⟩
  | none => rw [view_eq_none.2 hf]; exact ⟨hk, rfl, rfl⟩

theorem Keyed.step (hk : Keyed t) (op : HashOp α) :
    Keyed (op.apply t) ∧ view (op.apply t) = (op.onMap (view t)).2 := by
  cases op with
  | add key value mode => exact ⟨(hk.add key value mode).1, (hk.add key value mode).2.2⟩
  | remove key => exact ⟨(hk.remove key).1, (hk.remove key).2.2⟩

theorem Keyed.run (hk : Keyed t) (ops : List (HashOp α)) :
    Keyed (runOps t ops) ∧ view (runOps t ops) = ops.foldl (fun m op => (op.onMap m).2) (view t) := by
  induction ops generalizing t with
  | nil => exact ⟨hk, rfl⟩
  | cons op ops ih =>
    obtain ⟨hk', hv⟩ := hk.step op
    rw [List.foldl_cons, ← hv]
    exact ih hk'

theorem Keyed.new : Keyed (hashNew : Hash α) :=
  ⟨Inv.new, by rw [entries, hashNew, flatten_replicate_nil]; exact List.nodup_nil⟩

theorem view_hashNew : view (hashNew : Hash α) = fun _ => none :=
  funext fun _ => by rw [view, entries, hashNew, flatten_replicate_nil]; rfl

/-- Over every run of `hash_add` and `hash_remove` from `hash_new`, the entries stored on the
chains have distinct hashes, and the table implements the map from hash codes to values:
`hash_find` of any key reads the map at the key's hash, and the next `hash_add` or `hash_remove`
returns what the same operation on the map returns. -/
theorem hash_refines_map (ops : List (HashOp α)) :
    let t := runOps hashNew ops
    (t.slots.flatten.map Entry.h).Nodup ∧
      (∀ key, hashFind t key = mapRun ops (hashfn key)) ∧
      (∀ key value mode, (hashAdd t key value mode).1 = (mapAdd (mapRun ops) key value mode).1) ∧
      ∀ key, (hashRemove t key).1 = (mapRemove (mapRun ops) key).1 := by
  intro t
  obtain ⟨hk, hv⟩ := Keyed.new.run ops
  have hm : view t = mapRun ops := by rw [hv, view_hashNew]; rfl
  refine ⟨hk.nodup, fun key => ?_, fun key value mode => ?_, fun key => ?_⟩
  · rw [hk.hashFind_eq, hm]
  · rw [(hk.add key value mode).2.1, hm]
  · rw [(hk.remove key).2.1, hm]

/-- Over every run from `hash_new`, `hash_keys` lists no key twice: two entries with one key
would have one hash. -/
theorem hashKeys_nodup (ops : List (HashOp α)) : (hashKeys (runOps hashNew ops)).Nodup := by
  obtain ⟨hk, -⟩ := Keyed.new.run ops
  rw [hashKeys_eq hk.inv.length]
  refine List.Nodup.of_map hashfn ?_
  rw [List.map_map, show hashfn ∘ Entry.key = (Entry.h : Entry α → UInt64) from
    funext fun e => e.h_eq.symm]
  exact hk.nodup

end Refinement

end Disorder.HashTable

import Mathlib.Data.List.Basic

/-! The chained hash table of lib/hash.c: `nslots` chains (256 at first, doubled by `grow` when the
item count reaches the slot count), entries placed on chain `hashfn key & (nslots - 1)` with the
newest first, and a chain search that stops at the first entry with `e->h == n || !strcmp(e->key,
key)`. Keys are the bytes of a C string. Proved: since an entry's stored hash is the hash of its key,
that search only compares hashes, so `hash_find`, `hash_add` and `hash_remove` cannot tell apart two
keys with the same `hashfn`; against the finite map the table is meant to be, a second key that
collides with a first is refused by `HASH_INSERT` and found with the first key's value. -/

namespace Disorder.HashTable

/-- `hashfn`: `i = 33 * i + byte` over the key's bytes, in `size_t` arithmetic. -/
def hashfn (key : List UInt8) : UInt64 :=
  key.foldl (fun i c => 33 * i + c.toUInt64) 0

/-- One entry of a chain. `value` is `none` while the entry's value bytes were never written
(it was added with a NULL value). The stored hash is the key's hash. -/
structure Entry (α : Type) where
  key : List UInt8
  h : UInt64
  value : Option α
  h_eq : h = hashfn key

/-- A hash table: the slot count, the item count kept by add and remove, and the chains. -/
structure Hash (α : Type) where
  nslots : Nat
  nitems : Nat
  slots : List (List (Entry α))

/-- The modes of `hash_add`. -/
inductive Mode where
  | insert
  | replace
  | insertOrReplace
  deriving DecidableEq, Repr

variable {α : Type}

/-- The chain index of hash `n`: `n & (nslots - 1)`. -/
def slotOf (n : UInt64) (nslots : Nat) : Nat := n.toNat &&& (nslots - 1)

/-- The test of the chain searches: `e->h == n || !strcmp(e->key, key)`. -/
def keyMatches (n : UInt64) (key : List UInt8) (e : Entry α) : Bool :=
  e.h == n || e.key == key

/-- The chain that key hash `n` is looked up on. -/
def chain (t : Hash α) (n : UInt64) : List (Entry α) := t.slots.getD (slotOf n t.nslots) []

/-- `hash_new`: 256 empty chains; the structure comes from `xmalloc`, which zeroes it. -/
def hashNew : Hash α := ⟨256, 0, List.replicate 256 []⟩

/-- `grow`: twice the slots; every entry of every chain, in order, is pushed on the front of its
chain in the new table. -/
def grow (t : Hash α) : Hash α :=
  let newnslots := 2 * t.nslots
  let newslots := (List.range t.nslots).foldl
    (fun ns n => (t.slots.getD n []).foldl (fun ns e => ns.modify (e :: ·) (slotOf e.h newnslots)) ns)
    (List.replicate newnslots [])
  { t with slots := newslots, nslots := newnslots }

/-- Replace the value of the first entry of a chain that passes `p` (the `memcpy` into `e->value`). -/
def setFirst (p : Entry α → Bool) (v : α) : List (Entry α) → List (Entry α)
  | [] => []
  | e :: es => if p e then { e with value := some v } :: es else e :: setFirst p v es

/-- `hash_add`: the return code and the table after. -/
def hashAdd (t : Hash α) (key : List UInt8) (value : Option α) (mode : Mode) : Int × Hash α :=
  let n := hashfn key
  match (chain t n).find? (keyMatches n key) with
  | some _ =>
    if mode = .insert then (-1, t) else
    match value with
    | some v => (0, { t with slots := t.slots.modify (setFirst (keyMatches n key) v) (slotOf n t.nslots) })
    | none => (0, t)
  | none =>
    if mode = .replace then (-1, t) else
    let t := if t.nitems ≥ t.nslots then grow t else t
    let e : Entry α := ⟨key, n, value, rfl⟩
    (0, { t with slots := t.slots.modify (e :: ·) (slotOf n t.nslots), nitems := t.nitems + 1 })

/-- `hash_remove`: unlink the first matching entry of the chain. -/
def hashRemove (t : Hash α) (key : List UInt8) : Int × Hash α :=
  let n := hashfn key
  match (chain t n).find? (keyMatches n key) with
  | some _ =>
    let slots := t.slots.modify (List.eraseP (keyMatches n key)) (slotOf n t.nslots)
    (0, { t with slots := slots, nitems := t.nitems - 1 })
  | none => (-1, t)

/-- `hash_find`: the value of the first matching entry (`none` for a NULL return). -/
def hashFind (t : Hash α) (key : List UInt8) : Option (Option α) :=
  ((chain t (hashfn key)).find? (keyMatches (hashfn key) key)).map Entry.value

/-- `hash_count`. -/
def hashCount (t : Hash α) : Nat := t.nitems

/-- `hash_keys`: the keys chain by chain, slot 0 first. -/
def hashKeys (t : Hash α) : List (List UInt8) :=
  (List.range t.nslots).flatMap (fun n => (t.slots.getD n []).map Entry.key)

/-! ### The search compares hashes only -/

/-- For an entry, matching a key is having that key's hash: the string comparison adds nothing,
because an entry with the same key has the same hash. -/
theorem keyMatches_eq (key : List UInt8) (e : Entry α) :
    keyMatches (hashfn key) key e = (e.h == hashfn key) := by
  unfold keyMatches
  by_cases hk : e.key = key
  · simp [hk, e.h_eq]
  · simp [hk]

theorem hashFind_eq_of_hashfn_eq (t : Hash α) {k₁ k₂ : List UInt8} (hk : hashfn k₁ = hashfn k₂) :
    hashFind t k₁ = hashFind t k₂ := by
  unfold hashFind
  rw [funext (keyMatches_eq k₁), funext (keyMatches_eq k₂), hk]

theorem slotOf_lt (n : UInt64) (nslots : Nat) (h : 0 < nslots) : slotOf n nslots < nslots :=
  lt_of_le_of_lt Nat.and_le_right (Nat.sub_lt h Nat.one_pos)

/-- `hash_add` of an absent key when no grow is due: the new entry heads its chain. -/
theorem hashAdd_absent {t : Hash α} {key : List UInt8} (v : Option α) {mode : Mode}
    (hf : (chain t (hashfn key)).find? (keyMatches (hashfn key) key) = none) (hm : mode ≠ .replace)
    (hg : t.nitems < t.nslots) :
    hashAdd t key v mode = (0, { t with
      slots := t.slots.modify (⟨key, hashfn key, v, rfl⟩ :: ·) (slotOf (hashfn key) t.nslots),
      nitems := t.nitems + 1 }) := by
  simp only [hashAdd, hf, hm, if_false, show ¬ t.nitems ≥ t.nslots by omega]

/-- `hash_add` of a key whose chain has a matching entry, under `HASH_INSERT`: refused. -/
theorem hashAdd_present_insert {t : Hash α} {key : List UInt8} (v : Option α) {e : Entry α}
    (hf : (chain t (hashfn key)).find? (keyMatches (hashfn key) key) = some e) :
    hashAdd t key v .insert = (-1, t) := by
  simp only [hashAdd, hf, if_true]

/-- The only chain of a one-entry table built from `hash_new` holds that entry. -/
theorem chain_hashAdd_new (key : List UInt8) (v : Option α) :
    chain (hashAdd hashNew key v .insert).2 (hashfn key) = [⟨key, hashfn key, v, rfl⟩] := by
  have hlt := slotOf_lt (hashfn key) 256 (by decide)
  have hnew : chain (hashNew : Hash α) (hashfn key) = [] := by
    simp only [chain, hashNew, List.getD_eq_getElem?_getD, List.getElem?_replicate, hlt, if_true,
      Option.getD_some]
  rw [hashAdd_absent v (by rw [hnew]; rfl) (by decide) (by show 0 < 256; decide)]
  simp only [chain, hashNew, List.getD_eq_getElem?_getD, List.getElem?_modify_eq,
    List.getElem?_replicate, hlt, if_true]
  rfl

/-! ### Against the finite map the table should be -/

/-- Two keys with the same hash: after the first is inserted into a new table, a map from keys to
values has no binding for the second, yet `HASH_INSERT` of the second is refused and `hash_find`
of the second returns the first key's value, because the chain search accepts `e->h == n` alone. -/
theorem hash_collision (k₁ k₂ : List UInt8) (hne : k₁ ≠ k₂) (hk : hashfn k₁ = hashfn k₂) (v w : α) :
    Function.update (fun _ => none) k₁ (some v) k₂ = none ∧
      (hashAdd (hashAdd hashNew k₁ (some v) .insert).2 k₂ (some w) .insert).1 = -1 ∧
      hashFind (hashAdd hashNew k₁ (some v) .insert).2 k₂ = some (some v) := by
  refine ⟨Function.update_noteq hne.symm _ _, ?_, ?_⟩
  · refine congrArg Prod.fst (hashAdd_present_insert (some w) (e := ⟨k₁, hashfn k₁, some v, rfl⟩) ?_)
    rw [← hk, chain_hashAdd_new]
    simp [keyMatches]
  · rw [← hashFind_eq_of_hashfn_eq _ hk]
    simp [hashFind, chain_hashAdd_new, keyMatches]

/-- The keys `"Aa"` and `"B@"`: both hash to 2242. -/
theorem hash_collision_Aa_B : [65, 97] ≠ ([66, 64] : List UInt8) ∧ hashfn [65, 97] = hashfn [66, 64] ∧
    Function.update (fun _ => none) [65, 97] (some 1) [66, 64] = (none : Option Nat) ∧
      (hashAdd (hashAdd hashNew [65, 97] (some 1) .insert).2 [66, 64] (some 2) .insert).1 = -1 ∧
      hashFind (hashAdd hashNew [65, 97] (some 1) .insert).2 [66, 64] = some (some 1) :=
  ⟨by decide, by decide, hash_collision [65, 97] [66, 64] (by decide) (by decide) 1 2⟩

end Disorder.HashTable

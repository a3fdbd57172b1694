import Mathlib.Data.List.Basic

/-! The byte buffer of lib/event.c (`struct buffer` and `buffer_space`), shared by the buffered
reader and writer. A buffer is one allocation, `base` to `top`, holding its data between `start` and
`end`. `buffer_space` makes room for `bytes` more at `end` in one of three ways: it rewinds an empty
buffer to `base`, moves the data down to `base` with `memmove` when the free space at both ends is
enough, or copies it to a new allocation of `16 * 2 ^ k` bytes. Proved: every way keeps the data,
leaves at least `bytes` free after `end`, and keeps `start ≤ end ≤ top`. Sizes are unbounded
naturals; `allocSizeT` is the growth loop in `size_t` arithmetic, which ends, at the same size, for
every request of at most `SIZE_MAX / 2` bytes with the data. -/

namespace Disorder.Event

/-- A `struct buffer`: the allocation `mem` (`base` is its first byte, `top` one past its last) and
the offsets of `start` and `end` (`stop`, since `end` is a keyword). -/
structure Buffer where
  mem : List UInt8
  start : Nat
  stop : Nat
  deriving DecidableEq, Repr, Inhabited

namespace Buffer

/-- The buffered bytes, `start` to `end`. -/
def content (b : Buffer) : List UInt8 := (b.mem.take b.stop).drop b.start

/-- The pointers are in order: `base ≤ start ≤ end ≤ top`. -/
def Wf (b : Buffer) : Prop := b.start ≤ b.stop ∧ b.stop ≤ b.mem.length

instance (b : Buffer) : Decidable b.Wf := inferInstanceAs (Decidable (_ ∧ _))

/-- The free bytes after `end`, `top - end`. -/
def space (b : Buffer) : Nat := b.mem.length - b.stop

/-- A zeroed buffer, as in a structure fresh from `xmalloc`. -/
def empty : Buffer := ⟨[], 0, 0⟩

/-- `for(n = 16; n < newspace; n *= 2);` -/
def allocSize (newspace : Nat) : Nat := loop newspace 16
where
  /-- The doubling loop, run at most `fuel` times; `newspace` times is enough. -/
  loop : Nat → Nat → Nat
    | 0, n => n
    | fuel + 1, n => if n < newspace then loop fuel (2 * n) else n

/-- `buffer_space`: make room for `bytes` at `end`. -/
def bufferSpace (b : Buffer) (bytes : Nat) : Buffer :=
  let b := if b.start = b.stop then { b with start := 0, stop := 0 } else b
  if b.space < bytes then
    if b.space + b.start < bytes then
      let n := allocSize (b.stop - b.start + bytes)
      ⟨b.content ++ List.replicate (n - (b.stop - b.start)) 0, 0, b.stop - b.start⟩
    else
      ⟨b.content ++ b.mem.drop (b.stop - b.start), 0, b.stop - b.start⟩
  else b

/-- Append bytes at `end`, as `read` or `memcpy` into the free space does. -/
def fill (b : Buffer) (bs : List UInt8) : Buffer :=
  ⟨b.mem.take b.stop ++ bs ++ b.mem.drop (b.stop + bs.length), b.start, b.stop + bs.length⟩

/-- Consume `n` bytes at `start`. -/
def consume (b : Buffer) (n : Nat) : Buffer := { b with start := b.start + n }

/-! ### What `buffer_space` keeps -/

theorem allocSize_loop_ge (newspace : Nat) :
    ∀ fuel n, 0 < n → newspace ≤ n + fuel → newspace ≤ allocSize.loop newspace fuel n
  | 0, n, _, h => by simpa [allocSize.loop] using h
  | fuel + 1, n, hn, h => by
    unfold allocSize.loop
    split_ifs with hlt
    · exact allocSize_loop_ge newspace fuel (2 * n) (by omega) (by omega)
    · omega

theorem le_allocSize (newspace : Nat) : newspace ≤ allocSize newspace :=
  allocSize_loop_ge newspace newspace 16 (by decide) (by omega)

/-- `SIZE_MAX`, the largest `size_t`. -/
def SIZE_MAX : Nat := UInt64.size - 1

/-- The doubling loop of `buffer_space` as `size_t` computes it: `n *= 2` wraps, and a request
past `SIZE_MAX / 2` would take `n` to `0` and keep the loop going. -/
def allocSizeT (newspace : Nat) : Nat := loop newspace 16
where
  /-- The loop, run at most `fuel` times. -/
  loop : Nat → Nat → Nat
    | 0, n => n
    | fuel + 1, n => if n < newspace then loop fuel (2 * n % (SIZE_MAX + 1)) else n

/-- Below `SIZE_MAX / 2` the doublings never wrap, so the `size_t` loop is the unbounded one. -/
theorem allocSizeT_loop_eq {newspace : Nat} (hmax : newspace ≤ SIZE_MAX / 2) :
    ∀ fuel n, allocSizeT.loop newspace fuel n = allocSize.loop newspace fuel n
  | 0, _ => rfl
  | fuel + 1, n => by
    unfold allocSizeT.loop allocSize.loop
    split_ifs with hlt
    · rw [Nat.mod_eq_of_lt (by unfold SIZE_MAX at hmax ⊢; omega)]
      exact allocSizeT_loop_eq hmax fuel (2 * n)
    · rfl

theorem content_length {b : Buffer} (h : b.Wf) : b.content.length = b.stop - b.start := by
  simp [content, h.2, h.1]

theorem wf_rewind {b : Buffer} (h : b.Wf) :
    (if b.start = b.stop then { b with start := 0, stop := 0 } else b).Wf ∧
      (if b.start = b.stop then { b with start := 0, stop := 0 } else b).content = b.content := by
  split_ifs with he
  · refine ⟨⟨le_rfl, Nat.zero_le _⟩, ?_⟩
    simp only [content, List.take_zero, List.drop_nil, he]
    exact (List.drop_eq_nil_of_le (List.length_take_le _ _)).symm
  · exact ⟨h, rfl⟩

theorem content_mk_zero (xs ys : List UInt8) : (⟨xs ++ ys, 0, xs.length⟩ : Buffer).content = xs := by
  simp [content]

/-- `buffer_space` keeps the data, the pointer order, and leaves `bytes` free after `end`. -/
theorem bufferSpace_spec {b : Buffer} (h : b.Wf) (bytes : Nat) :
    (b.bufferSpace bytes).Wf ∧ (b.bufferSpace bytes).content = b.content ∧
      bytes ≤ (b.bufferSpace bytes).space := by
  obtain ⟨hw, hc⟩ := wf_rewind h
  unfold bufferSpace
  generalize (if b.start = b.stop then { b with start := 0, stop := 0 } else b) = b' at hw hc ⊢
  dsimp only
  have hlen := content_length hw
  obtain ⟨h1, h2⟩ := hw
  split_ifs with hs hs'
  · have ha := le_allocSize (b'.stop - b'.start + bytes)
    refine ⟨⟨Nat.zero_le _, ?_⟩, ?_, ?_⟩
    · simp [hlen]
    · rw [← hc, ← hlen, content_mk_zero]
    · simp only [space, List.length_append, List.length_replicate, hlen]; omega
  · refine ⟨⟨Nat.zero_le _, ?_⟩, ?_, ?_⟩
    · simp [hlen]
    · rw [← hc, ← hlen, content_mk_zero]
    · simp only [space, List.length_append, List.length_drop, hlen] at hs' ⊢; omega
  · exact ⟨⟨h1, h2⟩, hc, by unfold space at hs ⊢; omega⟩

/-- A request whose buffered and extra bytes together stay within `SIZE_MAX / 2`: the `size_t`
growth loop ends by its own test, at the size the model allocates, and `buffer_space` keeps
`base ≤ start ≤ end ≤ top` and the data, and leaves `bytes` free after `end`, whichever of its three
ways it takes. -/
theorem bufferSpace_within_size_max {b : Buffer} (h : b.Wf) {bytes : Nat}
    (hmax : b.stop - b.start + bytes ≤ SIZE_MAX / 2) :
    allocSizeT (b.stop - b.start + bytes) = allocSize (b.stop - b.start + bytes) ∧
      b.stop - b.start + bytes ≤ allocSizeT (b.stop - b.start + bytes) ∧
      (b.bufferSpace bytes).Wf ∧ (b.bufferSpace bytes).content = b.content ∧
      bytes ≤ (b.bufferSpace bytes).space := by
  have heq : allocSizeT (b.stop - b.start + bytes) = allocSize (b.stop - b.start + bytes) :=
    allocSizeT_loop_eq hmax _ 16
  exact ⟨heq, heq ▸ le_allocSize _, bufferSpace_spec h bytes⟩

/-- Two bytes buffered after one consumed, and twenty more asked for: a new allocation of 32. -/
theorem bufferSpace_within_size_max_grow :
    (⟨[1, 2, 3], 1, 3⟩ : Buffer).Wf ∧ 3 - 1 + 20 ≤ SIZE_MAX / 2 ∧
      (allocSizeT (3 - 1 + 20) = allocSize (3 - 1 + 20) ∧ 3 - 1 + 20 ≤ allocSizeT (3 - 1 + 20) ∧
      ((⟨[1, 2, 3], 1, 3⟩ : Buffer).bufferSpace 20).Wf ∧
      ((⟨[1, 2, 3], 1, 3⟩ : Buffer).bufferSpace 20).content = (⟨[1, 2, 3], 1, 3⟩ : Buffer).content ∧
      20 ≤ ((⟨[1, 2, 3], 1, 3⟩ : Buffer).bufferSpace 20).space) :=
  ⟨by decide, by decide, bufferSpace_within_size_max (b := ⟨[1, 2, 3], 1, 3⟩) (by decide) (by decide)⟩

theorem fill_spec {b : Buffer} (h : b.Wf) (bs : List UInt8) :
    (b.fill bs).Wf ∧ (b.fill bs).content = b.content ++ bs := by
  obtain ⟨h1, h2⟩ := h
  refine ⟨⟨by simp [fill]; omega, by simp [fill]; omega⟩, ?_⟩
  have ht : (b.mem.take b.stop).length = b.stop := by simp; omega
  simp only [fill, content, List.append_assoc, List.take_append_eq_append_take, ht,
    Nat.add_sub_cancel_left, List.take_of_length_le (show (b.mem.take b.stop).length ≤ b.stop + bs.length
      by omega), List.take_left']
  rw [List.drop_append_of_le_length (by omega)]
  simp

theorem consume_spec {b : Buffer} (h : b.Wf) {n : Nat} (hn : n ≤ b.content.length) :
    (b.consume n).Wf ∧ (b.consume n).content = b.content.drop n := by
  rw [content_length h] at hn
  have h1 := h.1
  exact ⟨⟨show b.start + n ≤ b.stop by omega, h.2⟩, by simp [consume, content, List.drop_drop, Nat.add_comm]⟩

@[simp] theorem consume_consume (b : Buffer) (m n : Nat) : (b.consume m).consume n = b.consume (m + n) := by
  simp [consume, Nat.add_assoc]

end Buffer

end Disorder.Event

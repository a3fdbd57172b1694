import Mathlib.Data.List.Basic

/-! Word and token parsing of lib/mime.c, at the level of bytes in memory. A parser is given the
memory from its pointer on: the NUL-terminated string and whatever lies after its NUL. It returns
a value and the memory after what it consumed (the pointer it returns), or `NULL`; a read past all
the memory it was given is `fault`.

`parsetoken`, and the token branch of `parseword`, stop at the first byte that is not a word
character, and NUL is not one: they read nothing after the NUL and return a pointer at or before it.
The quoted branch of `parseword` does not test for NUL. It appends the NUL to the value and reads on
into whatever follows, and the test `if(!c) return 0` after its loop, where `c` is always the
closing quote, never fires. Only a backslash just before the NUL is caught. -/

namespace Disorder.Mime

/-- `"` and `\`. -/
def quote : UInt8 := 34
def backslash : UInt8 := 92

/-- What a parser makes of the memory from its pointer on. -/
inductive Parse where
  | ok (value rest : List UInt8)
  | null
  | fault
  deriving DecidableEq, Repr

/-- `tspecial`: the specials of RFC 2045. -/
def tspecial (c : UInt8) : Bool := "()<>@,;:\\\"/[]?=".toList.any fun d => d.toNat = c.toNat

/-- `http_separator`: the separators of RFC 2616. -/
def httpSeparator (c : UInt8) : Bool :=
  "()<>@,;:\\\"/[]?=\x7b\x7d \t".toList.any fun d => d.toNat = c.toNat

/-- `iswordchar`: printable, not a space, and not special. -/
def iswordchar (special : UInt8 → Bool) (c : UInt8) : Bool := !(c ≤ 32 || c > 126 || special c)

/-- The loop of the quoted branch of `parseword`, from the byte after the opening quote: each byte
is appended, a backslash escaping the next (`NULL` if that is a NUL), until the closing quote. The
test after the loop sees that quote. -/
def quoted (value : List UInt8) : List UInt8 → Parse
  | [] => .fault
  | c :: s =>
    if c = quote then (if c = 0 then .null else .ok value s)
    else if c = backslash then
      match s with
      | [] => .fault
      | c :: s => if c = 0 then .null else quoted (value ++ [c]) s
    else quoted (value ++ [c]) s

section Parsers

variable (special : UInt8 → Bool)

/-- The loop of the token branch of `parseword`: word characters are appended while they last. -/
def tokenLoop (value : List UInt8) : List UInt8 → Parse
  | [] => .fault
  | c :: s => if iswordchar special c then tokenLoop (value ++ [c]) s else .ok value (c :: s)

/-- `parseword`: a quoted-string, or a token of word characters; `NULL` if there is no word. -/
def parseword : List UInt8 → Parse
  | [] => .fault
  | c :: s =>
    if c = quote then quoted [] s
    else if !iswordchar special c then .null
    else tokenLoop special [] (c :: s)

/-- `parsetoken`: a word that is not a quoted-string. -/
def parsetoken : List UInt8 → Parse
  | [] => .fault
  | c :: s => if c = quote then .null else parseword special (c :: s)

@[simp] theorem iswordchar_zero : iswordchar special 0 = false := by
  simp [iswordchar]

/-- Over a NUL-free input the token loop takes the word characters up to the first other byte,
which at the latest is the NUL. -/
theorem tokenLoop_within (value : List UInt8) {s : List UInt8} (hs : 0 ∉ s) (after : List UInt8) :
    tokenLoop special value (s ++ 0 :: after) =
      .ok (value ++ s.takeWhile (iswordchar special)) (s.dropWhile (iswordchar special) ++ 0 :: after) := by
  induction s generalizing value with
  | nil => simp [tokenLoop]
  | cons c s ih =>
    have hc : c ≠ 0 := fun h => hs (h ▸ List.mem_cons_self _ _)
    rw [List.cons_append, tokenLoop]
    by_cases hw : iswordchar special c
    · simp [hw, ih _ fun h => hs (List.mem_cons_of_mem _ h), List.takeWhile_cons, List.dropWhile_cons]
    · simp [hw, List.takeWhile_cons, List.dropWhile_cons]

/-- `parsetoken` reads nothing after the NUL: over every NUL-terminated input, whatever follows,
it returns `NULL`, or a value that begins the input and a pointer to the rest of the input, at or
before its NUL. -/
theorem parsetoken_within (s : List UInt8) (hs : 0 ∉ s) :
    (∀ after, parsetoken special (s ++ 0 :: after) = .null) ∨
    ∃ v r, s = v ++ r ∧ ∀ after, parsetoken special (s ++ 0 :: after) = .ok v (r ++ 0 :: after) := by
  cases s with
  | nil => exact .inl fun _ => by simp [parsetoken, parseword, quote]
  | cons c s =>
    by_cases hq : c = quote
    · exact .inl fun _ => by simp [parsetoken, hq]
    by_cases hw : iswordchar special c
    · refine .inr ⟨_, _, (List.takeWhile_append_dropWhile (iswordchar special) _).symm, fun after => ?_⟩
      have h := tokenLoop_within special [] hs after
      simp only [List.nil_append, List.cons_append] at h
      simp only [parsetoken, parseword, List.cons_append, hq, hw, if_false, Bool.not_true, h, Bool.false_eq_true]
    · exact .inl fun _ => by simp [parsetoken, parseword, hq, hw]

/-- The cookie name of `sid=1`: `sid`, and a pointer to `=`. -/
theorem parsetoken_within_sid :
    (0 : UInt8) ∉ [115, 105, 100, 61, 49] ∧
    ((∀ after, parsetoken httpSeparator ([115, 105, 100, 61, 49] ++ 0 :: after) = .null) ∨
    ∃ v r, [115, 105, 100, 61, 49] = v ++ r ∧
      ∀ after, parsetoken httpSeparator ([115, 105, 100, 61, 49] ++ 0 :: after) = .ok v (r ++ 0 :: after)) :=
  ⟨by decide, parsetoken_within httpSeparator _ (by decide)⟩

end Parsers

/-- Bytes with no quote and no backslash are appended as they are, NUL included. -/
theorem quoted_plain (value : List UInt8) {s : List UInt8} (hs : quote ∉ s ∧ backslash ∉ s) (rest : List UInt8) :
    quoted value (s ++ rest) = quoted (value ++ s) rest := by
  induction s generalizing value with
  | nil => simp
  | cons c s ih =>
    have hq : c ≠ quote := fun h => hs.1 (h ▸ List.mem_cons_self _ _)
    have hb : c ≠ backslash := fun h => hs.2 (h ▸ List.mem_cons_self _ _)
    rw [List.cons_append, quoted.eq_def]
    simp only [if_neg hq, if_neg hb]
    rw [ih _ ⟨fun h => hs.1 (List.mem_cons_of_mem _ h), fun h => hs.2 (List.mem_cons_of_mem _ h)⟩]
    simp

theorem quoted_close (value rest : List UInt8) : quoted value (quote :: rest) = .ok value rest := by
  rw [quoted.eq_def]; simp [quote]

/-- A quoted-string left open at the NUL: `parseword` appends the NUL and goes on parsing whatever
lies after it, so that a quote there closes the string past the NUL. -/
theorem parseword_reads_past_nul (special : UInt8 → Bool) (s after : List UInt8)
    (hs : quote ∉ s ∧ backslash ∉ s) :
    parseword special (quote :: s ++ 0 :: after) = quoted (s ++ [0]) after := by
  rw [List.cons_append, parseword, if_pos rfl, quoted_plain [] hs, List.nil_append, quoted.eq_def]
  simp [quote, backslash]

/-- `"a`, its NUL, and a quote: the word `a` and the NUL, and a pointer past the NUL. -/
theorem parseword_reads_past_nul_quote :
    (quote ∉ [97] ∧ backslash ∉ [97]) ∧
    parseword tspecial ([quote, 97] ++ [0, quote, 120]) = quoted [97, 0] [quote, 120] ∧
    quoted [97, 0] [quote, 120] = .ok [97, 0] [120] :=
  ⟨by decide, parseword_reads_past_nul tspecial [97] [quote, 120] (by decide), quoted_close _ _⟩

/-- A backslash just before the NUL is caught: `NULL`. -/
theorem parseword_escape_at_nul (special : UInt8 → Bool) {s : List UInt8} (hs : quote ∉ s ∧ backslash ∉ s)
    (after : List UInt8) : parseword special (quote :: s ++ backslash :: 0 :: after) = .null := by
  rw [List.cons_append, parseword, if_pos rfl, quoted_plain [] hs, quoted.eq_def]
  simp [quote, backslash]

end Disorder.Mime

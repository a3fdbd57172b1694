import Disorder.Mime.Headers

/-! `mime_content_type` and `mime_rfc2388_content_disposition` of lib/mime.c. Both read a token
(for a content type, two around a `/`) and then the same optional parameter, `; name=word`. Their
input is memory from the pointer on, NUL included: `parseword` may read on past the NUL
(`Disorder.Mime.Parse`), and reading past the memory given is `fault`.

A field written as a writer writes it, a token, `; `, a parameter name, `=` and the value as a
quoted-string, comes back with the token and parameter name lowercased and the value unescaped,
whatever blanks stand around it and whatever lies after its NUL
(`mimeRfc2388ContentDisposition_sent`, `mimeContentType_sent`). -/

namespace Disorder.Mime

def semicolon : UInt8 := 59
def slash : UInt8 := 47

/-- What these parsers make of a field: its parts, `-1`, or a read past the memory given. -/
inductive Parsed (α : Type) where
  | ok (a : α)
  | refused
  | fault
  deriving DecidableEq, Repr

instance : Monad Parsed where
  pure := .ok
  bind p f := match p with
    | .ok a => f a
    | .refused => .refused
    | .fault => .fault

@[simp] theorem Parsed.ok_bind {α β : Type} (a : α) (f : α → Parsed β) : (Parsed.ok a >>= f) = f a :=
  rfl

@[simp] theorem Parsed.pure_eq {α : Type} (a : α) : (pure a : Parsed α) = .ok a := rfl

/-- `if(!(s = skipwhite(s, 1))) return -1`. -/
def skip (s : List UInt8) : Parsed (List UInt8) :=
  match skipwhite true s with
  | some t => .ok t
  | none => .refused

/-- `if(!*s) return -1`. -/
def notNul (s : List UInt8) : Parsed (List UInt8) := if atNul s then .refused else .ok s

/-- `if(*s++ != c) return -1`. -/
def expect (c : UInt8) : List UInt8 → Parsed (List UInt8)
  | d :: s => if d = c then .ok s else .refused
  | [] => .refused

/-- `if(!(s = parseword(s, valuep, tspecial))) return -1`. -/
def word (s : List UInt8) : Parsed (List UInt8 × List UInt8) :=
  match parseword tspecial s with
  | .ok v r => .ok (v, r)
  | .null => .refused
  | .fault => .fault

/-- The parameter part that `mime_content_type` and `mime_rfc2388_content_disposition` share: none
unless a `;` follows; then the name, lowercased, `=`, and a word. -/
def parameter (s : List UInt8) : Parsed (Option (List UInt8 × List UInt8)) :=
  match s with
  | c :: s =>
    if c = semicolon then do
      let s ← skip s
      let s ← notNul s
      let name := lowerToken s
      let s ← skip name.2
      let s ← expect equals s
      let s ← skip s
      let value ← word s
      let _ ← skip value.2
      pure (some (name.1, value.1))
    else pure none
  | [] => pure none

/-- `mime_content_type`: the type and subtype, lowercased, around `/`, and the parameter. -/
def mimeContentType (s : List UInt8) : Parsed (List UInt8 × Option (List UInt8 × List UInt8)) := do
  let s ← skip s
  let s ← notNul s
  let type := lowerToken s
  let s ← skip type.2
  let s ← expect slash s
  let s ← skip s
  let subtype := lowerToken s
  let s ← skip subtype.2
  let p ← parameter s
  pure (type.1 ++ slash :: subtype.1, p)

/-- `mime_rfc2388_content_disposition`: the disposition, lowercased, and the parameter. -/
def mimeRfc2388ContentDisposition (s : List UInt8) :
    Parsed (List UInt8 × Option (List UInt8 × List UInt8)) := do
  let s ← skip s
  let s ← notNul s
  let disposition := lowerToken s
  let s ← skip disposition.2
  let p ← parameter s
  pure (disposition.1, p)

/-! ### Quoted-strings -/

/-- A byte of a quoted-string as a writer sends it: `"` and `\` escaped with a backslash. -/
def escape (c : UInt8) : List UInt8 := if c = quote ∨ c = backslash then [backslash, c] else [c]

/-- A quoted-string as a writer sends it. -/
def quoteString (v : List UInt8) : List UInt8 := quote :: v.flatMap escape ++ [quote]

theorem mem_quoteString {a : UInt8} {v : List UInt8} (h : a ∈ quoteString v) :
    a = quote ∨ a = backslash ∨ a ∈ v := by
  simp only [quoteString, List.mem_cons, List.mem_append, List.mem_flatMap, List.mem_singleton,
    List.not_mem_nil, or_false] at h
  rcases h with (rfl | ⟨c, hc, h⟩) | rfl
  · exact .inl rfl
  · unfold escape at h
    split_ifs at h <;> simp only [List.mem_cons, List.mem_singleton, List.not_mem_nil, or_false] at h
    · rcases h with rfl | rfl
      exacts [.inr (.inl rfl), .inr (.inr hc)]
    · exact .inr (.inr (h ▸ hc))
  · exact .inl rfl

theorem quoted_escaped (acc : List UInt8) {v : List UInt8} (hv : 0 ∉ v) (rest : List UInt8) :
    quoted acc (v.flatMap escape ++ quote :: rest) = .ok (acc ++ v) rest := by
  induction v generalizing acc with
  | nil => simpa using quoted_close acc rest
  | cons c v ih =>
    have hc : c ≠ 0 := fun h => hv (h ▸ List.mem_cons_self _ _)
    have ih' : quoted (acc ++ [c]) (v.flatMap escape ++ quote :: rest) = .ok (acc ++ c :: v) rest := by
      simpa using ih (acc ++ [c]) fun h => hv (List.mem_cons_of_mem _ h)
    by_cases he : c = quote ∨ c = backslash
    · have hbq : backslash ≠ quote := by decide
      simp only [List.flatMap_cons, escape, if_pos he, List.cons_append, List.nil_append,
        List.append_assoc]
      rw [quoted.eq_def]
      simp [ih', hc, hbq]
    · simp only [List.flatMap_cons, escape, if_neg he, List.cons_append, List.nil_append,
        List.append_assoc]
      rw [quoted.eq_def]
      simp only [not_or] at he
      simp [ih', he.1, he.2]

/-- `parseword` reads a quoted-string back as the value written, and stops after its closing
quote. -/
theorem parseword_quoteString (special : UInt8 → Bool) {v : List UInt8} (hv : 0 ∉ v)
    (rest : List UInt8) : parseword special (quoteString v ++ rest) = .ok v rest := by
  simpa [quoteString, parseword] using quoted_escaped [] hv rest

/-! ### Fields as a writer sends them -/

/-- `token; name=` and the value as a quoted-string. -/
def withParameter (token name value : List UInt8) : List UInt8 :=
  token ++ semicolon :: space :: name ++ equals :: quoteString value

theorem skip_stop {c : UInt8} (hc : whitespace c = false) (hp : c ≠ lparen) (s : List UInt8) :
    skip (c :: s) = .ok (c :: s) := by
  simp [skip, skipwhite_stop true hc hp]

theorem skip_quoteString (v s : List UInt8) : skip (quoteString v ++ s) = .ok (quoteString v ++ s) := by
  simpa [quoteString] using skip_stop (c := quote) (by decide) (by decide) (v.flatMap escape ++ quote :: s)

/-- Blanks, then a token that a byte which is no token byte ends: `skipwhite` stops at the token. -/
theorem skip_token {ws t : List UInt8} (hw : ∀ c ∈ ws, whitespace c) (ht : ∀ c ∈ t, tokenChar c)
    {c : UInt8} (hc : whitespace c = false) (hp : c ≠ lparen) (s : List UInt8) :
    skip (ws ++ (t ++ c :: s)) = .ok (t ++ c :: s) := by
  cases t with
  | nil => simp [skip, skipwhite_blanks true hw hc hp]
  | cons d t =>
    have hd := ht d (List.mem_cons_self _ _)
    have hdw : whitespace d = false := by
      simp only [tokenChar, Bool.and_eq_true, Bool.not_eq_true'] at hd; exact hd.2
    have hdp : d ≠ lparen := by rintro rfl; exact absurd hd (by decide)
    simp [skip, skipwhite_blanks true hw hdw hdp]

theorem notNul_token {t : List UInt8} (ht : ∀ c ∈ t, tokenChar c) {c : UInt8} (hc : c ≠ 0)
    (s : List UInt8) : notNul (t ++ c :: s) = .ok (t ++ c :: s) := by
  cases t with
  | nil => simp [notNul, atNul, hc]
  | cons d t =>
    have hd := ht d (List.mem_cons_self _ _)
    have : d ≠ 0 := by rintro rfl; exact absurd hd (by decide)
    simp [notNul, atNul, this]

theorem lowerToken_token {t : List UInt8} (ht : ∀ c ∈ t, tokenChar c) {c : UInt8}
    (hc : tokenChar c = false) (s : List UInt8) :
    lowerToken (t ++ c :: s) = (t.map tolower, c :: s) := by
  simp [lowerToken, List.takeWhile_append_of_pos ht, List.dropWhile_append_of_pos ht, hc]

/-- The parameter as a writer sends it, followed by blanks and the NUL, comes back with its name
lowercased and its value unescaped. -/
theorem parameter_sent {name value ws : List UInt8} (hn : ∀ c ∈ name, tokenChar c)
    (hv : 0 ∉ value) (hw : ∀ c ∈ ws, whitespace c) (after : List UInt8) :
    parameter (semicolon :: space :: (name ++ equals :: (quoteString value ++ (ws ++ 0 :: after)))) =
      .ok (some (name.map tolower, value)) := by
  have hs := @skip_token [space] name (by decide) hn equals (by decide) (by decide)
    (quoteString value ++ (ws ++ 0 :: after))
  have hend : skip (ws ++ 0 :: after) = .ok (0 :: after) := by
    simpa using skip_token hw (t := []) (by simp) (c := 0) (by decide) (by decide) after
  simp only [List.singleton_append] at hs
  simp [parameter, hs, notNul_token hn (c := equals) (by decide),
    lowerToken_token hn (c := equals) (by decide), skip_stop (c := equals) (by decide) (by decide),
    expect, skip_quoteString, word, parseword_quoteString tspecial hv, hend]

/-- A Content-Disposition field's value as a writer sends it, with blanks before it and blanks, the
NUL and anything at all after it: the disposition and the parameter name come back lowercased, and
the value as it was before quoting. -/
theorem mimeRfc2388ContentDisposition_sent {ws ws' d name value : List UInt8}
    (hw : ∀ c ∈ ws, whitespace c) (hw' : ∀ c ∈ ws', whitespace c) (hd : ∀ c ∈ d, tokenChar c)
    (hn : ∀ c ∈ name, tokenChar c) (hv : 0 ∉ value) (after : List UInt8) :
    mimeRfc2388ContentDisposition (ws ++ withParameter d name value ++ ws' ++ 0 :: after) =
      .ok (d.map tolower, some (name.map tolower, value)) := by
  simp [mimeRfc2388ContentDisposition, withParameter, skip_token hw hd (c := semicolon) (by decide)
    (by decide), notNul_token hd (c := semicolon) (by decide),
    lowerToken_token hd (c := semicolon) (by decide), skip_stop (c := semicolon) (by decide)
    (by decide), parameter_sent hn hv hw']

/-- A content type `type/subtype; name="value"` as a writer sends it, with blanks around it and
anything after its NUL: the type, subtype and parameter name come back lowercased, and the value as
it was before quoting. -/
theorem mimeContentType_sent {ws ws' type subtype name value : List UInt8}
    (hw : ∀ c ∈ ws, whitespace c) (hw' : ∀ c ∈ ws', whitespace c) (ht : ∀ c ∈ type, tokenChar c)
    (hs : ∀ c ∈ subtype, tokenChar c) (hn : ∀ c ∈ name, tokenChar c) (hv : 0 ∉ value)
    (after : List UInt8) :
    mimeContentType (ws ++ withParameter (type ++ slash :: subtype) name value ++ ws' ++ 0 :: after) =
      .ok ((type ++ slash :: subtype).map tolower, some (name.map tolower, value)) := by
  have hsub := @skip_token [] subtype (by simp) hs semicolon (by decide) (by decide)
    (space :: (name ++ equals :: (quoteString value ++ (ws' ++ 0 :: after))))
  simp only [List.nil_append] at hsub
  have hslash : tolower slash = slash := by decide
  simp [mimeContentType, withParameter, skip_token hw ht (c := slash) (by decide) (by decide),
    notNul_token ht (c := slash) (by decide), lowerToken_token ht (c := slash) (by decide),
    skip_stop (c := slash) (by decide) (by decide), expect, hsub,
    lowerToken_token hs (c := semicolon) (by decide), skip_stop (c := semicolon) (by decide)
    (by decide), parameter_sent hn hv hw', hslash]

/-- `multipart/form-data; boundary="xyz"`. -/
theorem mimeContentType_sent_form :
    (∀ c ∈ ([] : List UInt8), whitespace c) ∧ (∀ c ∈ ascii "Multipart", tokenChar c) ∧
    (∀ c ∈ ascii "form-data", tokenChar c) ∧ (∀ c ∈ ascii "boundary", tokenChar c) ∧
    (0 : UInt8) ∉ ascii "xyz" ∧
    mimeContentType ([] ++ withParameter (ascii "Multipart" ++ slash :: ascii "form-data")
        (ascii "boundary") (ascii "xyz") ++ [] ++ 0 :: []) =
      .ok ((ascii "Multipart" ++ slash :: ascii "form-data").map tolower,
        some ((ascii "boundary").map tolower, ascii "xyz")) :=
  ⟨by decide, by decide, by decide, by decide, by decide,
    mimeContentType_sent (by decide) (by decide) (by decide) (by decide) (by decide) (by decide) []⟩

end Disorder.Mime

import Disorder.Mime.Parse
import Disorder.Mime.Multipart

/-! The header parser of lib/mime.c: `skipwhite`, the field loop of `mime_parse` and the decoder
`mime_qp` it calls. Strings are lists of bytes, ended by a NUL or by the end of the list, as in
`Disorder.Mime.Multipart`.

A field's value is everything from the colon to the LF that ends the field, so it keeps the space
after the colon and the CR before the LF. `mime_parse` compares the value of a
Content-Transfer-Encoding field, lowercased, with `base64` and `quoted-printable`, so a field
written with a CRLF never selects a decoder: a header block written with CRLF line ends comes back
field by field, and the body after it as it was sent (`mimeParse_block`). -/

namespace Disorder.Mime

def space : UInt8 := 32
def tab : UInt8 := 9
def colon : UInt8 := 58
def lparen : UInt8 := 40
def rparen : UInt8 := 41
def equals : UInt8 := 61

/-- `whitespace`. -/
def whitespace (c : UInt8) : Bool := c == space || c == tab || c == cr || c == lf

/-- `tolower`, in the C locale. -/
def tolower (c : UInt8) : UInt8 := if 65 ≤ c ∧ c ≤ 90 then c + 32 else c

/-- The bytes of an ASCII string. -/
def ascii (s : String) : List UInt8 := s.toList.map fun c => c.toNat.toUInt8

/-! ### `skipwhite` -/

/-- The loop of `skipwhite`, inside `depth` nested comments (none at `0`): `none` for a comment
still open at the NUL, or a backslash just before it (`return 0`). -/
def skipLoop (comments : Bool) : Nat → List UInt8 → Option (List UInt8)
  | 0, [] => some []
  | 0, c :: s =>
    if whitespace c then skipLoop comments 0 s
    else if c = lparen ∧ comments then skipLoop comments 1 s
    else some (c :: s)
  | _ + 1, [] => none
  | d + 1, c :: s =>
    if c = 0 then none
    else if c = lparen then skipLoop comments (d + 2) s
    else if c = rparen then skipLoop comments d s
    else if c = backslash then
      match s with
      | [] => none
      | e :: s => if e = 0 then none else skipLoop comments (d + 1) s
    else skipLoop comments (d + 1) s

/-- `skipwhite`: spaces, tabs, CRs and LFs, and with `rfc822_comments` nested comments. -/
def skipwhite (comments : Bool) (s : List UInt8) : Option (List UInt8) := skipLoop comments 0 s

theorem skipLoop_suffix {comments : Bool} {d : Nat} {s t : List UInt8}
    (h : skipLoop comments d s = some t) : t <:+ s := by
  obtain ⟨n, hn⟩ : ∃ n, s.length = n := ⟨_, rfl⟩
  induction n using Nat.strong_induction_on generalizing d s with
  | _ n ih =>
    have step : ∀ {d s'}, s' <:+ s → s'.length < n → skipLoop comments d s' = some t → t <:+ s :=
      fun hs hl h => (ih _ hl h rfl).trans hs
    match d, s, h with
    | 0, [], h => cases h; exact List.suffix_refl _
    | 0, c :: s, h =>
      simp only [skipLoop] at h
      split_ifs at h
      · exact step (List.suffix_cons _ _) (by simp [← hn]) h
      · exact step (List.suffix_cons _ _) (by simp [← hn]) h
      · cases h; exact List.suffix_refl _
    | _ + 1, [], h => cases h
    | d + 1, c :: s, h =>
      rw [skipLoop.eq_def] at h
      dsimp only at h
      split_ifs at h
      · exact step (List.suffix_cons _ _) (by simp [← hn]) h
      · exact step (List.suffix_cons _ _) (by simp [← hn]) h
      · split at h
        · cases h
        · split_ifs at h
          exact step ((List.suffix_cons _ _).trans (List.suffix_cons _ _)) (by simp [← hn]; omega) h
      · exact step (List.suffix_cons _ _) (by simp [← hn]) h

theorem skipwhite_stop (comments : Bool) {c : UInt8} (hc : whitespace c = false) (hp : c ≠ lparen)
    (s : List UInt8) : skipwhite comments (c :: s) = some (c :: s) := by
  simp [skipwhite, skipLoop, hc, hp]

/-- Blanks before a byte that is neither white nor `(` are skipped, and nothing more. -/
theorem skipwhite_blanks (comments : Bool) {ws : List UInt8} (hw : ∀ c ∈ ws, whitespace c)
    {c : UInt8} (hc : whitespace c = false) (hp : c ≠ lparen) (s : List UInt8) :
    skipwhite comments (ws ++ c :: s) = some (c :: s) := by
  induction ws with
  | nil => exact skipwhite_stop comments hc hp s
  | cons w ws ih =>
    simpa [skipwhite, skipLoop, hw w (List.mem_cons_self _ _)] using
      ih fun c hc => hw c (List.mem_cons_of_mem _ hc)

/-! ### `mime_parse` -/

/-- A byte of a header name, a type or a parameter name: not NUL, not special, not white. -/
def tokenChar (c : UInt8) : Bool := c != 0 && !tspecial c && !whitespace c

/-- The lowercasing token loops of `mime_parse`, `mime_content_type` and
`mime_rfc2388_content_disposition`: the token, lowercased, and the string after it. -/
def lowerToken (s : List UInt8) : List UInt8 × List UInt8 :=
  ((s.takeWhile tokenChar).map tolower, s.dropWhile tokenChar)

/-- The value loop of `mime_parse`: everything up to an LF that no space or tab follows, so that a
folded field keeps its line breaks. -/
def fieldValue : List UInt8 → List UInt8 × List UInt8
  | [] => ([], [])
  | c :: s =>
    if c = 0 ∨ (c = lf ∧ ¬ (s.head? = some space ∨ s.head? = some tab)) then ([], c :: s)
    else ((c :: (fieldValue s).1), (fieldValue s).2)

theorem fieldValue_suffix (s : List UInt8) : (fieldValue s).2 <:+ s := by
  induction s with
  | nil => exact List.suffix_refl _
  | cons c s ih =>
    simp only [fieldValue]
    split_ifs
    · exact List.suffix_refl _
    · exact ih.trans (List.suffix_cons _ _)

/-- One field of `mime_parse`'s loop: the lowercased name, the value, and the string after the LF
that ends the value; `none` (`return 0`) for a comment left open after the name, or no colon. -/
def field (s : List UInt8) : Option (List UInt8 × List UInt8 × List UInt8) :=
  match skipwhite true (lowerToken s).2 with
  | some (c :: t) =>
    if c = colon then
      some ((lowerToken s).1, (fieldValue t).1,
        if atNul (fieldValue t).2 then (fieldValue t).2 else (fieldValue t).2.tail)
    else none
  | _ => none

theorem field_length {s name value rest : List UInt8} (h : field s = some (name, value, rest)) :
    rest.length < s.length := by
  unfold field at h
  split at h
  · rename_i c t ht
    have h1 : (c :: t).length ≤ s.length :=
      (skipLoop_suffix ht).length_le.trans (List.dropWhile_suffix _).length_le
    have h2 := (fieldValue_suffix t).length_le
    split_ifs at h <;> cases h <;> simp only [List.length_tail, List.length_cons] at h1 ⊢ <;> omega
  · cases h

/-! ### `mime_qp` -/

/-- `unhexdigitq` (lib/hex.c, not among the sources): the value of a hexadecimal digit of either
case, `-1` for any other byte. -/
def unhexdigitq (c : UInt8) : Int :=
  if 48 ≤ c ∧ c ≤ 57 then (c.toNat : Int) - 48
  else if 65 ≤ c ∧ c ≤ 70 then (c.toNat : Int) - 55
  else if 97 ≤ c ∧ c ≤ 102 then (c.toNat : Int) - 87
  else -1

/-- A space or a tab: what `mime_qp` skips before a line end. -/
def isBlank (c : UInt8) : Bool := c == space || c == tab

/-- The byte of `=XX` in `mime_qp`, and the string after it, when both `X` are hex digits. -/
def hexPair : List UInt8 → Option (UInt8 × List UInt8)
  | a :: b :: s =>
    if unhexdigitq a ≠ -1 ∧ unhexdigitq b ≠ -1 then
      some ((unhexdigitq a * 16 + unhexdigitq b).toNat.toUInt8, s)
    else none
  | _ => none

theorem hexPair_length {s t : List UInt8} {x : UInt8} (h : hexPair s = some (x, t)) :
    t.length < s.length := by
  match s, h with
  | a :: b :: s, h =>
    simp only [hexPair] at h
    split_ifs at h
    cases h
    simp only [List.length_cons]; omega

/-- `mime_qp`: `=XX` is the byte `XX`; `=`, blanks and CRLF is a soft line break; blanks before a
CRLF are dropped; `none` (`return 0`) for any other `=`. -/
def mimeQp (s : List UInt8) : Option (List UInt8) :=
  match s with
  | [] => some []
  | c :: s =>
    if c = 0 then some []
    else if c = equals then
      match h : hexPair s with
      | some (x, s') =>
        have := hexPair_length h
        (mimeQp s').map (x :: ·)
      | none =>
        if iscrlf (s.dropWhile isBlank) then
          have := (List.dropWhile_suffix isBlank (l := s)).length_le
          mimeQp ((s.dropWhile isBlank).drop 2)
        else none
    else if isBlank c then
      if iscrlf (s.dropWhile isBlank) then
        have := (List.dropWhile_suffix isBlank (l := s)).length_le
        mimeQp (s.dropWhile isBlank)
      else (mimeQp s).map (c :: ·)
    else (mimeQp s).map (c :: ·)
termination_by s.length
decreasing_by all_goals simp_wf; try omega

section Fields

variable {σ : Type} (callback : List UInt8 → List UInt8 → σ → Int × σ)

/-- The loop of `mime_parse`: fields up to the NUL or the CRLF of the empty line, each handed to the
callback, a non-zero return ending the parse (`return 0`); the string where the loop stopped, and
the lowercased value of the last Content-Transfer-Encoding field. -/
def fields (s : List UInt8) (cte : Option (List UInt8)) (u : σ) :
    Option (List UInt8 × Option (List UInt8)) × σ :=
  if atNul s || iscrlf s then (some (s, cte), u)
  else
    match h : field s with
    | none => (none, u)
    | some (name, value, rest) =>
      let cte := if name = ascii "content-transfer-encoding" then some (value.map tolower) else cte
      let r := callback name value u
      if r.1 ≠ 0 then (none, r.2)
      else
        have := field_length h
        fields rest cte r.2
termination_by s.length

/-- `mime_parse`, with `mime_base64` (lib/base64.c, not among the sources) as a parameter: the
body, decoded as the last Content-Transfer-Encoding field asks, or `none` (`NULL`). -/
def mimeParse (base64 : List UInt8 → Option (List UInt8)) (s : List UInt8) (u : σ) :
    Option (List UInt8) × σ :=
  match fields callback s none u with
  | (none, u) => (none, u)
  | (some (s, cte), u) =>
    let body := if atNul s then s else s.drop 2
    (match cte with
      | some c =>
        if c = ascii "base64" then base64 body
        else if c = ascii "quoted-printable" then mimeQp body
        else some body
      | none => some body, u)

theorem fields_stop {s : List UInt8} (hs : atNul s || iscrlf s) (cte : Option (List UInt8)) (u : σ) :
    fields callback s cte u = (some (s, cte), u) := by
  rw [fields, if_pos hs]

theorem fields_step {s name value rest : List UInt8} (hs : (atNul s || iscrlf s) = false)
    (h : field s = some (name, value, rest)) (cte : Option (List UInt8)) (u : σ) :
    fields callback s cte u =
      let cte := if name = ascii "content-transfer-encoding" then some (value.map tolower) else cte
      let r := callback name value u
      if r.1 ≠ 0 then (none, r.2) else fields callback rest cte r.2 := by
  rw [fields, if_neg (by simp [hs])]
  split
  · simp_all
  · rename_i name' value' rest' h'
    obtain ⟨rfl, rfl, rfl⟩ : name = name' ∧ value = value' ∧ rest = rest' := by simpa using h.symm.trans h'
    rfl

end Fields

/-! ### A header block as a writer sends it -/

/-- A header field as a writer sends it: the name, a colon, the value and CRLF. -/
def headerLine (f : List UInt8 × List UInt8) : List UInt8 := f.1 ++ colon :: f.2 ++ crlf

/-- The fields of a header, one line each. -/
def headerBlock (fs : List (List UInt8 × List UInt8)) : List UInt8 := (fs.map headerLine).flatten

/-- A field a writer may send: a name of token bytes, and a value with no NUL in which every LF is
followed by a space or a tab (a folded line). -/
def Sendable (f : List UInt8 × List UInt8) : Prop :=
  (∀ c ∈ f.1, tokenChar c) ∧ 0 ∉ f.2 ∧
    ∀ t ∈ f.2.tails, t.head? = some lf → t.tail.head? = some space ∨ t.tail.head? = some tab

instance (f : List UInt8 × List UInt8) : Decidable (Sendable f) :=
  inferInstanceAs (Decidable (_ ∧ _ ∧ _))

theorem fieldValue_sent {v : List UInt8} (h0 : 0 ∉ v)
    (hv : ∀ t ∈ v.tails, t.head? = some lf → t.tail.head? = some space ∨ t.tail.head? = some tab)
    {rest : List UInt8} (hr : rest.head? ≠ some space ∧ rest.head? ≠ some tab) :
    fieldValue (v ++ crlf ++ rest) = (v ++ [cr], lf :: rest) := by
  induction v with
  | nil => simp [fieldValue, crlf, hr, cr, lf]
  | cons c v ih =>
    have hc : c ≠ 0 := fun h => h0 (h ▸ List.mem_cons_self _ _)
    have hstop : ¬ (c = 0 ∨ (c = lf ∧
        ¬ ((v ++ crlf ++ rest).head? = some space ∨ (v ++ crlf ++ rest).head? = some tab))) := by
      rintro (h | ⟨rfl, h⟩)
      · exact hc h
      · have := hv _ ((List.mem_tails _ _).2 (List.suffix_refl _)) rfl
        cases v <;> simp_all
    rw [List.cons_append, List.cons_append, fieldValue, if_neg hstop,
      ih (fun h => h0 (List.mem_cons_of_mem _ h)) fun t ht => hv t (by simp [ht])]
    rfl

theorem field_sent {f : List UInt8 × List UInt8} (hf : Sendable f) {rest : List UInt8}
    (hr : rest.head? ≠ some space ∧ rest.head? ≠ some tab) :
    field (headerLine f ++ rest) = some (f.1.map tolower, f.2 ++ [cr], rest) := by
  have hcolon : tokenChar colon = false := by decide
  have hl : lowerToken (headerLine f ++ rest) = (f.1.map tolower, colon :: (f.2 ++ crlf ++ rest)) := by
    simp [lowerToken, headerLine, List.takeWhile_append_of_pos hf.1,
      List.dropWhile_append_of_pos hf.1, hcolon]
  rw [field, hl, skipwhite_stop true (by decide) (by decide)]
  dsimp only
  rw [if_pos rfl, fieldValue_sent hf.2.1 hf.2.2 hr]
  simp [atNul, lf]

/-- A header line begins with a name byte, or with the colon of an empty name. -/
theorem headerLine_head {f : List UInt8 × List UInt8} (hf : ∀ c ∈ f.1, tokenChar c)
    (x : List UInt8) : ∃ c y, headerLine f ++ x = c :: y ∧ c ≠ 0 ∧ c ≠ cr ∧ c ≠ space ∧ c ≠ tab := by
  match f, hf with
  | ([], _), _ => exact ⟨colon, _, rfl, by decide, by decide, by decide, by decide⟩
  | (c :: n, v), hf =>
    have h := hf c (List.mem_cons_self _ _)
    refine ⟨c, _, rfl, ?_, ?_, ?_, ?_⟩ <;> rintro rfl <;> exact absurd h (by decide)

theorem headerBlock_head {fs : List (List UInt8 × List UInt8)} (hfs : ∀ f ∈ fs, Sendable f)
    (body : List UInt8) :
    (headerBlock fs ++ crlf ++ body).head? ≠ some space ∧
      (headerBlock fs ++ crlf ++ body).head? ≠ some tab := by
  cases fs with
  | nil => simp [headerBlock, crlf, cr, space, tab]
  | cons f fs =>
    obtain ⟨c, y, hy, -, -, hs, ht⟩ := headerLine_head (hfs f (List.mem_cons_self _ _)).1
      (headerBlock fs ++ crlf ++ body)
    have : headerBlock (f :: fs) ++ crlf ++ body = headerLine f ++ (headerBlock fs ++ crlf ++ body) := by
      simp [headerBlock]
    rw [this, hy]
    simp [hs, ht]

section Block

variable {σ : Type} (callback : List UInt8 → List UInt8 → σ → Int × σ)

/-- The field loop over a header block a writer sent, the empty line and a body: the callback sees
each field in order, its name lowercased and its value with the CR before its LF, and, unless the
callback refuses one, the loop stops at the empty line holding a Content-Transfer-Encoding value, if
any, that ends with a CR. -/
theorem fields_block {fs : List (List UInt8 × List UInt8)} (hfs : ∀ f ∈ fs, Sendable f)
    (body : List UInt8) {cte : Option (List UInt8)} (hcte : ∀ c, cte = some c → c.getLast? = some cr)
    (u : σ) :
    ∃ cte' : Option (List UInt8), (∀ c, cte' = some c → c.getLast? = some cr) ∧
      fields callback (headerBlock fs ++ crlf ++ body) cte u =
        let r := callEach (fun (f : List UInt8 × List UInt8) u => callback f.1 f.2 u)
          (fs.map fun f => (f.1.map tolower, f.2 ++ [cr])) u
        (if r.1 ≠ 0 then none else some (crlf ++ body, cte'), r.2) := by
  induction fs generalizing cte u with
  | nil =>
    refine ⟨cte, hcte, ?_⟩
    rw [fields_stop callback (by simp [headerBlock, crlf, iscrlf])]
    simp [callEach, headerBlock]
  | cons f fs ih =>
    have hf := hfs f (List.mem_cons_self _ _)
    have hfs' : ∀ f ∈ fs, Sendable f := fun f h => hfs f (List.mem_cons_of_mem _ h)
    have hsplit : headerBlock (f :: fs) ++ crlf ++ body =
        headerLine f ++ (headerBlock fs ++ crlf ++ body) := by simp [headerBlock]
    obtain ⟨c, y, hy, h0, hcr, -, -⟩ := headerLine_head hf.1 (headerBlock fs ++ crlf ++ body)
    have hs : (atNul (headerBlock (f :: fs) ++ crlf ++ body) ||
        iscrlf (headerBlock (f :: fs) ++ crlf ++ body)) = false := by
      rw [hsplit, hy]
      cases y <;> simp [atNul, iscrlf, h0, hcr]
    rw [fields_step callback hs (hsplit ▸ field_sent hf (headerBlock_head hfs' body))]
    simp only [List.map_cons, callEach]
    by_cases hr : (callback (f.1.map tolower) (f.2 ++ [cr]) u).1 ≠ 0
    · exact ⟨none, by simp, by simp [hr]⟩
    · simp only [hr, if_false]
      refine ih hfs' (fun c hc => ?_) _
      split_ifs at hc
      · cases hc; simp [List.getLast?_map, tolower, cr]
      · exact hcte c hc

/-- Once the field loop has stopped at the empty line with a Content-Transfer-Encoding value that ends
with a CR, if any, `mime_parse` returns the body after the empty line undecoded. -/
theorem mimeParse_of_fields (base64 : List UInt8 → Option (List UInt8)) {s body : List UInt8}
    {u : σ} {r : Int × σ} {cte : Option (List UInt8)} (hcte : ∀ c, cte = some c → c.getLast? = some cr)
    (h : fields callback s none u = (if r.1 ≠ 0 then none else some (crlf ++ body, cte), r.2)) :
    mimeParse callback base64 s u = (if r.1 ≠ 0 then none else some body, r.2) := by
  rw [mimeParse, h]
  by_cases hr : r.1 ≠ 0
  · simp [hr]
  · have hbody : (if atNul (crlf ++ body) = true then crlf ++ body else (crlf ++ body).drop 2) = body := by
      simp [atNul, crlf, cr]
    simp only [hr, if_false, hbody]
    cases cte with
    | none => rfl
    | some c =>
      have hc := hcte c rfl
      have h64 : c ≠ ascii "base64" := by rintro rfl; exact absurd hc (by decide)
      have hqp : c ≠ ascii "quoted-printable" := by rintro rfl; exact absurd hc (by decide)
      simp [h64, hqp]

/-- `mime_parse` on a header block a writer sent, the empty line and a body: the callback sees each
field in order, its name lowercased and its value from after the colon to the CR before the LF;
unless the callback refuses a field, the body comes back as it was sent, whatever a
Content-Transfer-Encoding field says. -/
theorem mimeParse_block (base64 : List UInt8 → Option (List UInt8))
    {fs : List (List UInt8 × List UInt8)} (hfs : ∀ f ∈ fs, Sendable f) (body : List UInt8) (u : σ) :
    mimeParse callback base64 (headerBlock fs ++ crlf ++ body) u =
      let r := callEach (fun (f : List UInt8 × List UInt8) u => callback f.1 f.2 u)
        (fs.map fun f => (f.1.map tolower, f.2 ++ [cr])) u
      (if r.1 ≠ 0 then none else some body, r.2) := by
  obtain ⟨cte, hcte, h⟩ := @fields_block σ callback fs hfs body none (by simp) u
  exact mimeParse_of_fields callback base64 hcte h

/-- A Content-Transfer-Encoding field asking for base64, ended by CRLF: the body comes back as sent,
not decoded. -/
theorem mimeParse_block_base64 :
    (∀ f ∈ [(ascii "Content-Transfer-Encoding", ascii " base64")], Sendable f) ∧
    mimeParse (fun _ _ (n : Nat) => ((0 : Int), n + 1)) (fun _ => some [])
        (headerBlock [(ascii "Content-Transfer-Encoding", ascii " base64")] ++ crlf ++ ascii "QUJD") 0 =
      (some (ascii "QUJD"), 1) :=
  ⟨by decide, (mimeParse_block _ _ (by decide) _ _).trans (by decide)⟩

end Block

end Disorder.Mime

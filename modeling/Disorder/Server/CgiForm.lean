import Disorder.Mime.ContentType

/-! The form decoding of server/cgi.c for a `multipart/form-data` request. `cgi_parse_multipart`
splits the body with `mime_multipart`; `cgi_part_callback` parses each part's header with
`mime_parse`, where `cgi_field_callback` takes the field's name from its Content-Disposition
(`mime_rfc2388_content_disposition`); and the name and the body are pushed on the front of
`cgi_args`. `cgi_get` returns the first pair of a name there (`kvp_get`), so of a name sent twice
it returns the value sent last.

Proved: a form as a browser sends it, each field named by a quoted-string with no CR, LF or NUL and
valued by bytes with no NUL and no line that begins with the dash-boundary, decodes to its fields,
the last one first (`cgiParseMultipart_form`); `cgi_get` then returns, for each name, the value of
the last field of that name (`cgiGet_form`). -/

namespace Disorder.Cgi

open Mime

/-- How the CGI stops before it has its arguments: `fatal` with its message, or an outcome the C
leaves undefined (a read past a string's NUL, or the crash of `mime_multipart`). -/
inductive Exit where
  | fatal (msg : String)
  | undefined
  deriving DecidableEq, Repr

/-- A callback whose C either returns 0 or calls `fatal`: the process ends at the `fatal`, so here
the callback returns non-zero, which stops the parser calling it, and its state keeps the exit. -/
def stopOnExit {σ : Type} (f : σ → Except Exit σ) : Except Exit σ → Int × Except Exit σ
  | .ok s =>
    match f s with
    | .ok s' => (0, .ok s')
    | .error e => (1, .error e)
  | .error e => (1, .error e)

/-- `cgi_field_callback`: the name a `form-data` Content-Disposition field gives, into `*namep`.
The field's value is a string of its own, so its memory ends at its NUL. -/
def cgiFieldCallback (name value : List UInt8) (namep : Option (List UInt8)) :
    Except Exit (Option (List UInt8)) :=
  if name = ascii "content-disposition" then
    match mimeRfc2388ContentDisposition (value ++ [0]) with
    | .refused => .error (.fatal "error parsing Content-Disposition field")
    | .fault => .error .undefined
    | .ok (disposition, some (pname, pvalue)) =>
      if disposition = ascii "form-data" ∧ pname = ascii "name" then
        if namep.isSome then .error (.fatal "duplicate Content-Disposition field")
        else .ok (some pvalue)
      else .ok namep
    | .ok (_, none) => .ok namep
  else .ok namep

/-- The pairs of `cgi_args`, most recent first. -/
abbrev Args := List (List UInt8 × List UInt8)

/-- `cgi_part_callback`, with `mime_base64` as `mime_parse` takes it: the part's header parsed for
its name, and the name and the body, as a C string, pushed on the front of `cgi_args`. -/
def cgiPartCallback (base64 : List UInt8 → Option (List UInt8)) (s : List UInt8) (args : Args) :
    Except Exit Args :=
  match mimeParse (fun name value => stopOnExit (cgiFieldCallback name value)) base64 s (.ok none) with
  | (_, .error e) => .error e
  | (none, .ok _) => .error (.fatal "error parsing part header")
  | (some _, .ok none) => .error (.fatal "no name found")
  | (some body, .ok (some name)) => .ok ((name, body.takeWhile (· ≠ 0)) :: args)

/-- `cgi_parse_multipart`, over the body `cgi_input` read, with `cgi_args` empty before it. -/
def cgiParseMultipart (base64 : List UInt8 → Option (List UInt8)) (boundary q : List UInt8) :
    Except Exit Args :=
  match mimeMultipart (fun part => stopOnExit (cgiPartCallback base64 part)) boundary q (.ok []) with
  | none => .error .undefined
  | some (_, .error e) => .error e
  | some (ret, .ok args) => if ret ≠ 0 then .error (.fatal "invalid multipart object") else .ok args

/-- `kvp_get` (lib/kvp.c, not among the sources): the value of the first pair with the name. -/
def kvpGet (kvp : Args) (name : List UInt8) : Option (List UInt8) :=
  (kvp.find? (·.1 == name)).map (·.2)

/-- `cgi_get`, over `cgi_args`. -/
def cgiGet (cgiArgs : Args) (name : List UInt8) : Option (List UInt8) := kvpGet cgiArgs name

/-! ### A form as a browser sends it -/

/-- The Content-Disposition value of a form field: ` form-data; name="..."`. -/
def formDisposition (name : List UInt8) : List UInt8 := ascii " form-data; name=" ++ quoteString name

/-- A form field as a part of a `multipart/form-data` body: its Content-Disposition line, the empty
line, and the value. -/
def formPart (field : List UInt8 × List UInt8) : List UInt8 :=
  headerBlock [(ascii "Content-Disposition", formDisposition field.1)] ++ crlf ++ field.2

/-- A field a browser may send under `boundary`: a name with no NUL, CR or LF, and a value that the
multipart writer may send. -/
def FormField (boundary : List UInt8) (field : List UInt8 × List UInt8) : Prop :=
  0 ∉ field.1 ∧ cr ∉ field.1 ∧ lf ∉ field.1 ∧ Clean boundary field.2

instance (boundary : List UInt8) (field : List UInt8 × List UInt8) :
    Decidable (FormField boundary field) := inferInstanceAs (Decidable (_ ∧ _ ∧ _ ∧ _))

theorem formDisposition_eq (name : List UInt8) :
    formDisposition name = [space] ++ withParameter (ascii "form-data") (ascii "name") name := by
  have h : ascii " form-data; name=" =
      [space] ++ ascii "form-data" ++ [semicolon, space] ++ ascii "name" ++ [equals] := by decide
  simp [formDisposition, withParameter, h]

theorem not_mem_formDisposition {a : UInt8} (ha : a ∉ ascii " form-data; name=") (hq : a ≠ quote)
    (hb : a ≠ backslash) {name : List UInt8} (hn : a ∉ name) : a ∉ formDisposition name := by
  intro h
  rcases List.mem_append.1 h with h | h
  · exact ha h
  · rcases mem_quoteString h with h | h | h
    exacts [hq h, hb h, hn h]

/-- The browser's Content-Disposition field gives `cgi_field_callback` the field's name. -/
theorem cgiFieldCallback_form {name : List UInt8} (hn : 0 ∉ name) :
    cgiFieldCallback (ascii "content-disposition") (formDisposition name ++ [cr]) none =
      .ok (some name) := by
  have h := @mimeRfc2388ContentDisposition_sent [space] [cr] (ascii "form-data") (ascii "name") name
    (by decide) (by decide) (by decide) (by decide) hn []
  have hm : formDisposition name ++ [cr] ++ [0] =
      [space] ++ withParameter (ascii "form-data") (ascii "name") name ++ [cr] ++ 0 :: [] := by
    rw [formDisposition_eq]
  have hd : (ascii "form-data").map tolower = ascii "form-data" := by decide
  have hname : (ascii "name").map tolower = ascii "name" := by decide
  simp only [cgiFieldCallback, if_pos, hm, h, hd, hname, and_self, Option.isSome_none,
    Bool.false_eq_true, if_false]

theorem head_mem_of_mem_tails {a : UInt8} {t l : List UInt8} (ht : t ∈ l.tails)
    (h : t.head? = some a) : a ∈ l :=
  ((List.mem_tails _ _).1 ht).subset (List.mem_of_mem_head? h)

/-- `cgi_part_callback` on a form field's part pushes the field's name and value. -/
theorem cgiPartCallback_form (base64 : List UInt8 → Option (List UInt8)) {name value : List UInt8}
    (hn : 0 ∉ name ∧ lf ∉ name) (hv : 0 ∉ value) (args : Args) :
    cgiPartCallback base64 (formPart (name, value)) args = .ok ((name, value) :: args) := by
  have hs : ∀ f ∈ [(ascii "Content-Disposition", formDisposition name)], Sendable f := by
    simp only [List.mem_singleton, forall_eq]
    refine ⟨show ∀ c ∈ ascii "Content-Disposition", tokenChar c by decide,
      not_mem_formDisposition (by decide) (by decide) (by decide) hn.1,
      fun t ht hl => absurd (head_mem_of_mem_tails ht hl) ?_⟩
    exact not_mem_formDisposition (by decide) (by decide) (by decide) hn.2
  obtain ⟨cte, hcte, h⟩ := @fields_block _ (fun name value => stopOnExit (cgiFieldCallback name value))
    _ hs value none (by simp) (.ok none)
  have hp := mimeParse_of_fields _ base64 hcte h
  have hcd : (ascii "Content-Disposition").map tolower = ascii "content-disposition" := by decide
  simp [hcd, callEach, stopOnExit, cgiFieldCallback_form hn.1] at hp
  have hw : value.takeWhile (· ≠ 0) = value :=
    List.takeWhile_eq_self_iff.2 fun c hc => by simpa using ne_of_mem_of_not_mem hc hv
  simp only [cgiPartCallback, formPart, List.append_assoc, hp, hw]

theorem clean_formPart {boundary : List UInt8} (hb : cr ∉ boundary) {field : List UInt8 × List UInt8}
    (hf : FormField boundary field) : Clean boundary (formPart field) := by
  obtain ⟨h0, hcr, -, hv⟩ := hf
  have hsplit : formPart field =
      (ascii "Content-Disposition" ++ colon :: formDisposition field.1) ++ crlf ++ ([] ++ crlf ++ field.2) := by
    simp [formPart, headerBlock, headerLine]
  rw [hsplit]
  refine clean_line hb ?_ ?_ ?_ (clean_line hb (List.not_mem_nil _) (List.not_mem_nil _)
    (fun h => by simpa [dashes] using h.length_le) hv)
  · simpa using ⟨by decide, by decide, not_mem_formDisposition (by decide) (by decide) (by decide) h0⟩
  · simpa using ⟨by decide, by decide, not_mem_formDisposition (by decide) (by decide) (by decide) hcr⟩
  · rintro ⟨y, hy⟩
    have := congrArg List.head? hy
    simp [dashes, ascii, dash] at this
    exact absurd this (by decide)

/-- `cgi_part_callback` over the parts of a form, from `cgi_args` holding `args`. -/
theorem callEach_form (base64 : List UInt8 → Option (List UInt8)) {fields : Args}
    (hf : ∀ f ∈ fields, 0 ∉ f.1 ∧ lf ∉ f.1 ∧ 0 ∉ f.2) (args : Args) :
    callEach (fun part => stopOnExit (cgiPartCallback base64 part)) (fields.map formPart) (.ok args) =
      (0, .ok (fields.reverse ++ args)) := by
  induction fields generalizing args with
  | nil => rfl
  | cons f fields ih =>
    obtain ⟨h1, h2, h3⟩ := hf f (List.mem_cons_self _ _)
    simp only [List.map_cons, callEach, stopOnExit, cgiPartCallback_form base64 ⟨h1, h2⟩ h3]
    simp [ih (fun g hg => hf g (List.mem_cons_of_mem _ hg))]

/-- Of pairs pushed on the front in turn, `kvp_get` finds the last one pushed with the name. -/
theorem kvpGet_reverse (kvp : Args) (name : List UInt8) :
    kvpGet kvp.reverse name = ((kvp.filter (·.1 == name)).getLast?).map (·.2) := by
  suffices h : ∀ p : List UInt8 × List UInt8 → Bool, kvp.reverse.find? p = (kvp.filter p).getLast? by
    unfold kvpGet; rw [h]
  intro p
  induction kvp with
  | nil => rfl
  | cons a kvp ih =>
    rw [List.reverse_cons, List.find?_append, ih, List.filter_cons]
    by_cases hp : p a
    · rw [if_pos hp, List.getLast?_cons]
      cases (kvp.filter p).getLast? <;> simp [hp]
    · simp [hp]

/-- A form as a browser sends it, under a boundary with no NUL or CR and followed by CRLF or the end
of the body, decodes to `cgi_args` holding its fields, the last first; so `cgi_get` answers each
name with the value of the last field of that name. -/
theorem cgiParseMultipart_form (base64 : List UInt8 → Option (List UInt8)) {boundary : List UInt8}
    (hb : 0 ∉ boundary ∧ cr ∉ boundary) {fields : Args} (hf : ∀ f ∈ fields, FormField boundary f)
    {tail : List UInt8} (ht : iscrlf tail || atNul tail) :
    cgiParseMultipart base64 boundary (encapsulate boundary (fields.map formPart) ++ tail) =
      .ok fields.reverse ∧
    ∀ name, cgiGet fields.reverse name = ((fields.filter (·.1 == name)).getLast?).map (·.2) := by
  refine ⟨?_, kvpGet_reverse fields⟩
  have hm := parts_encapsulate (fun part => stopOnExit (cgiPartCallback base64 part)) boundary hb ht
    (fields.map formPart) (by
      simp only [List.mem_map]
      rintro _ ⟨f, hf', rfl⟩
      exact clean_formPart hb.2 (hf f hf')) (.ok [])
  rw [cgiParseMultipart, mimeMultipart, if_pos (isboundary_encapsulate boundary _ ht), hm,
    callEach_form base64 (fun f h => ?_) []]
  · simp
  · obtain ⟨h1, -, h2, h3⟩ := hf f h
    exact ⟨h1, h2, h3.1⟩

/-- Two fields of one name under the boundary `xyz`: `cgi_get` answers with the second. -/
theorem cgiParseMultipart_form_twice :
    ((0 : UInt8) ∉ ascii "xyz" ∧ cr ∉ ascii "xyz") ∧
    (∀ f ∈ [(ascii "a", ascii "1"), (ascii "a", ascii "2")], FormField (ascii "xyz") f) ∧
    (iscrlf [] || atNul []) ∧
    (cgiParseMultipart (fun _ => none) (ascii "xyz")
        (encapsulate (ascii "xyz") ([(ascii "a", ascii "1"), (ascii "a", ascii "2")].map formPart) ++ []) =
      .ok [(ascii "a", ascii "2"), (ascii "a", ascii "1")] ∧
    ∀ name, cgiGet [(ascii "a", ascii "2"), (ascii "a", ascii "1")] name =
      ((([(ascii "a", ascii "1"), (ascii "a", ascii "2")]).filter (·.1 == name)).getLast?).map (·.2)) :=
  ⟨by decide, by decide, by decide, cgiParseMultipart_form _ (by decide) (by decide) (by decide)⟩

end Disorder.Cgi

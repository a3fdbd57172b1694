import Disorder.Mime.ContentType

/-! `parse_cookie` and `find_cookie` of lib/mime.c: the value of an RFC 2109 Cookie: header as
`name=value` pairs, separated by `;` or `,`, where `$Version` sets the version and `$Path` and
`$Domain` fill in the last cookie's path and domain. The input is memory from the pointer on, as
for `Disorder.Mime.ContentType`.

Proved: the parse loop is the fold of its step for one pair over the pairs of the header, whatever
lies after its NUL (`cookieLoop_crumbs`); so a header as a client writes it, the version and each
cookie with its path and domain, values as quoted-strings, comes back as exactly those cookies, in
order (`parseCookie_header`). -/

namespace Disorder.Mime

def dollar : UInt8 := 36
def comma : UInt8 := 44

/-- `struct cookie`. -/
structure Cookie where
  name : List UInt8
  value : List UInt8
  path : Option (List UInt8)
  domain : Option (List UInt8)
  deriving DecidableEq, Repr

/-- `struct cookiedata`. -/
structure CookieData where
  version : Option (List UInt8)
  cookies : List Cookie
  deriving DecidableEq, Repr

/-- What `parse_cookie` returns: the cookies, `-1` with the message it logs (none for the syntax
errors it does not report), or a read past the memory given. -/
inductive CookieParse where
  | ok (cd : CookieData)
  | refused (logged : Option String)
  | fault
  deriving DecidableEq, Repr

/-- The result of `parsetoken` or `parseword`: `NULL` is `-1`. -/
def Parse.toParsed : Parse → Parsed (List UInt8 × List UInt8)
  | .ok v r => .ok (v, r)
  | .null => .refused
  | .fault => .fault

/-- `s = skipwhite(s, 0)`: without comments `skipwhite` never returns `NULL` (`skipwhite_false`). -/
def skip0 (s : List UInt8) : List UInt8 := (skipwhite false s).getD s

/-- One `name=value` of `parse_cookie`: the name, the value, and the memory after the value. -/
def crumb (s : List UInt8) : Parsed (List UInt8 × List UInt8 × List UInt8) := do
  let n ← (parsetoken httpSeparator s).toParsed
  let s ← expect equals (skip0 n.2)
  let v ← (parseword httpSeparator (skip0 s)).toParsed
  pure (n.1, v.1, v.2)

/-- The `$Path` and `$Domain` branches of `parse_cookie`: the last cookie takes the value unless it
has one already, or there is no cookie yet. -/
def attach (cd : CookieData) (has : Cookie → Bool) (put : Cookie → Cookie) (msg : String) :
    Except String CookieData :=
  match cd.cookies.getLast? with
  | some c => if has c then .error msg else .ok { cd with cookies := cd.cookies.dropLast ++ [put c] }
  | none => .error msg

/-- What `parse_cookie` does with one `name=value`. -/
def record (cd : CookieData) (nv : List UInt8 × List UInt8) : Except String CookieData :=
  if nv.1.head? = some dollar then
    if nv.1 = ascii "$Version" then .ok { cd with version := some nv.2 }
    else if nv.1 = ascii "$Path" then
      attach cd (·.path.isSome) ({ · with path := some nv.2 }) "redundant $Path in Cookie: header"
    else if nv.1 = ascii "$Domain" then
      attach cd (·.domain.isSome) ({ · with domain := some nv.2 })
        "redundant $Domain in Cookie: header"
    else .ok cd
  else .ok { cd with cookies := cd.cookies ++ [⟨nv.1, nv.2, none, none⟩] }

theorem quoted_length {acc s v r : List UInt8} (h : quoted acc s = .ok v r) :
    r.length < s.length := by
  induction acc, s using quoted.induct with
  | case1 => cases h
  | case2 acc s h0 => exact absurd h0 (by decide)
  | case3 acc s => rw [quoted_close] at h; cases h; simp
  | case4 acc _ => rw [quoted.eq_def] at h; simp [backslash, quote] at h
  | case5 acc s _ => rw [quoted.eq_def] at h; simp [backslash, quote] at h
  | case6 acc c s hc hbq ih =>
    rw [quoted.eq_def] at h
    simp only [if_neg hbq, if_pos rfl, if_neg hc] at h
    have := ih h
    simp only [List.length_cons]; omega
  | case7 acc c s hq hb ih =>
    rw [quoted.eq_def] at h
    simp only [if_neg hq, if_neg hb] at h
    have := ih h
    simp only [List.length_cons]; omega

theorem tokenLoop_length {special : UInt8 → Bool} {acc s v r : List UInt8}
    (h : tokenLoop special acc s = .ok v r) : r.length ≤ s.length := by
  induction acc, s using tokenLoop.induct special with
  | case1 => cases h
  | case2 acc c s hc ih =>
    rw [tokenLoop, if_pos hc] at h
    exact (ih h).trans (Nat.le_succ _)
  | case3 acc c s hc => rw [tokenLoop, if_neg hc] at h; cases h; exact le_rfl

/-- A word read is at least one byte of the memory. -/
theorem parseword_length {special : UInt8 → Bool} {s v r : List UInt8}
    (h : parseword special s = .ok v r) : r.length < s.length := by
  match s, h with
  | c :: s, h =>
    rw [parseword] at h
    by_cases hq : c = quote
    · rw [if_pos hq] at h
      exact (quoted_length h).trans (Nat.lt_succ_self _)
    · by_cases hw : iswordchar special c
      · rw [if_neg hq, if_neg (by simpa using hw), tokenLoop, if_pos hw] at h
        exact Nat.lt_succ_of_le (tokenLoop_length h)
      · rw [if_neg hq, if_pos (by simpa using hw)] at h
        cases h

theorem parsetoken_length {special : UInt8 → Bool} {s v r : List UInt8}
    (h : parsetoken special s = .ok v r) : r.length < s.length := by
  match s, h with
  | c :: s, h =>
    simp only [parsetoken] at h
    split_ifs at h
    exact parseword_length h

theorem skip0_suffix (s : List UInt8) : skip0 s <:+ s := by
  unfold skip0
  cases h : skipwhite false s with
  | none => exact List.suffix_refl _
  | some t => exact skipLoop_suffix h

theorem expect_length {c : UInt8} {s t : List UInt8} (h : expect c s = .ok t) :
    t.length < s.length := by
  match s, h with
  | d :: s, h =>
    simp only [expect] at h
    split_ifs at h
    cases h
    exact Nat.lt_succ_self _

theorem crumb_length {s n v r : List UInt8} (h : crumb s = .ok (n, v, r)) : r.length < s.length := by
  simp only [crumb] at h
  cases h1 : parsetoken httpSeparator s with
  | null => simp [h1, Parse.toParsed] at h
  | fault => simp [h1, Parse.toParsed] at h
  | ok n1 r1 =>
    cases h2 : expect equals (skip0 r1) with
    | refused => simp [h1, h2, Parse.toParsed] at h
    | fault => simp [h1, h2, Parse.toParsed] at h
    | ok t =>
      cases h3 : parseword httpSeparator (skip0 t) with
      | null => simp [h1, h2, h3, Parse.toParsed] at h
      | fault => simp [h1, h2, h3, Parse.toParsed] at h
      | ok v1 r2 =>
        simp [h1, h2, h3, Parse.toParsed] at h
        obtain ⟨-, -, rfl⟩ := h
        have := parsetoken_length h1
        have := (skip0_suffix r1).length_le
        have := expect_length h2
        have := (skip0_suffix t).length_le
        have := parseword_length h3
        omega

/-- The loop of `parse_cookie`, from a non-blank byte: separators are passed over, and each
`name=value` recorded, until the NUL. -/
def cookieLoop (s : List UInt8) (cd : CookieData) : CookieParse :=
  match s with
  | [] => .ok cd
  | c :: t =>
    if c = 0 then .ok cd
    else if c = semicolon ∨ c = comma then
      have : (skip0 t).length < (c :: t).length := Nat.lt_succ_of_le (skip0_suffix t).length_le
      cookieLoop (skip0 t) cd
    else
      match h : crumb (c :: t) with
      | .refused => .refused none
      | .fault => .fault
      | .ok (n, v, r) =>
        match record cd (n, v) with
        | .error msg => .refused (some msg)
        | .ok cd =>
          if atNul (skip0 r) || (skip0 r).head? = some comma || (skip0 r).head? = some semicolon then
            have : (skip0 r).length < (c :: t).length :=
              lt_of_le_of_lt (skip0_suffix r).length_le (crumb_length h)
            cookieLoop (skip0 r) cd
          else .refused (some "missing separator in Cookie: header")
termination_by s.length

/-- `parse_cookie`. -/
def parseCookie (s : List UInt8) : CookieParse := cookieLoop (skip0 s) ⟨none, []⟩

/-- `find_cookie`: the first cookie of the name. -/
def findCookie (cd : CookieData) (name : List UInt8) : Option Cookie := cd.cookies.find? (·.name = name)

theorem cookieLoop_nul (s : List UInt8) (cd : CookieData) : cookieLoop (0 :: s) cd = .ok cd := by
  rw [cookieLoop, if_pos rfl]

theorem cookieLoop_sep {c : UInt8} (hc : c = semicolon ∨ c = comma) (t : List UInt8)
    (cd : CookieData) : cookieLoop (c :: t) cd = cookieLoop (skip0 t) cd := by
  have h0 : c ≠ 0 := by rcases hc with rfl | rfl <;> decide
  rw [cookieLoop, if_neg h0, if_pos hc]

theorem cookieLoop_crumb {c : UInt8} {t n v r : List UInt8} (h0 : c ≠ 0)
    (hc : ¬ (c = semicolon ∨ c = comma)) (h : crumb (c :: t) = .ok (n, v, r)) (cd : CookieData) :
    cookieLoop (c :: t) cd =
      match record cd (n, v) with
      | .error msg => .refused (some msg)
      | .ok cd =>
        if atNul (skip0 r) || (skip0 r).head? = some comma || (skip0 r).head? = some semicolon then
          cookieLoop (skip0 r) cd
        else .refused (some "missing separator in Cookie: header") := by
  rw [cookieLoop, if_neg h0, if_neg hc]
  split
  · simp_all
  · simp_all
  · rename_i n' v' r' h'
    obtain ⟨rfl, rfl, rfl⟩ : n = n' ∧ v = v' ∧ r = r' := by simpa using h.symm.trans h'
    rfl

theorem skipwhite_false (s : List UInt8) : skipwhite false s = some (s.dropWhile whitespace) := by
  induction s with
  | nil => rfl
  | cons c s ih =>
    by_cases hc : whitespace c
    · simpa [skipwhite, skipLoop, hc] using ih
    · simp [skipwhite, skipLoop, hc]

theorem skip0_stop {c : UInt8} (hc : whitespace c = false) (s : List UInt8) :
    skip0 (c :: s) = c :: s := by
  simp [skip0, skipwhite_false, hc]

/-- The token loop takes a word and stops at the byte after it. -/
theorem tokenLoop_word {special : UInt8 → Bool} (acc : List UInt8) {w : List UInt8}
    (hw : ∀ c ∈ w, iswordchar special c) {d : UInt8} (hd : iswordchar special d = false)
    (s : List UInt8) : tokenLoop special acc (w ++ d :: s) = .ok (acc ++ w) (d :: s) := by
  induction w generalizing acc with
  | nil => simp [tokenLoop, hd]
  | cons c w ih =>
    rw [List.cons_append, tokenLoop, if_pos (hw c (List.mem_cons_self _ _)),
      ih _ fun c h => hw c (List.mem_cons_of_mem _ h)]
    simp

/-! ### A Cookie: header as a client writes it -/

/-- A `name=value` as a client writes it, the value as a quoted-string. -/
def crumbText (nv : List UInt8 × List UInt8) : List UInt8 := nv.1 ++ equals :: quoteString nv.2

/-- The pairs of a header, separated by `; `. -/
def crumbsText : List (List UInt8 × List UInt8) → List UInt8
  | [] => []
  | [nv] => crumbText nv
  | nv :: nv' :: nvs => crumbText nv ++ semicolon :: space :: crumbsText (nv' :: nvs)

/-- A pair a client may write: a name of one or more token bytes, and a value with no NUL. -/
def CrumbOk (nv : List UInt8 × List UInt8) : Prop :=
  nv.1 ≠ [] ∧ (∀ c ∈ nv.1, iswordchar httpSeparator c) ∧ 0 ∉ nv.2

theorem crumb_crumbText {nv : List UInt8 × List UInt8} (h : CrumbOk nv) (rest : List UInt8) :
    crumb (crumbText nv ++ rest) = .ok (nv.1, nv.2, rest) := by
  obtain ⟨c, w, hcw⟩ := List.exists_cons_of_ne_nil h.1
  have hq : c ≠ quote := by
    rintro rfl; exact absurd (h.2.1 quote (by simp [hcw])) (by decide)
  have hs := @tokenLoop_word httpSeparator [] _ h.2.1 equals (by decide) (quoteString nv.2 ++ rest)
  have hp : parsetoken httpSeparator (crumbText nv ++ rest) =
      .ok nv.1 (equals :: (quoteString nv.2 ++ rest)) := by
    have hw := h.2.1 c (by simp [hcw])
    simp only [crumbText, hcw, List.cons_append] at hs ⊢
    rw [parsetoken, if_neg hq, parseword, if_neg hq, if_neg (by simpa using hw)]
    simpa using hs
  have hv : parseword httpSeparator (quote :: (nv.2.flatMap escape ++ quote :: rest)) =
      .ok nv.2 rest := by
    simpa [quoteString] using parseword_quoteString httpSeparator h.2.2 rest
  have hq' : whitespace quote = false := by decide
  simp [crumb, hp, Parse.toParsed, skip0_stop (c := equals) (by decide), expect, quoteString,
    skip0_stop hq', hv]

/-- A token byte is none of what the loop looks at before a name: a NUL, a separator, a blank. -/
theorem wordchar_start {c : UInt8} (hc : iswordchar httpSeparator c) :
    c ≠ 0 ∧ ¬ (c = semicolon ∨ c = comma) ∧ whitespace c = false := by
  refine ⟨by rintro rfl; simp at hc, by rintro (rfl | rfl) <;> exact absurd hc (by decide), ?_⟩
  cases hw : whitespace c
  · rfl
  · simp only [whitespace, Bool.or_eq_true, beq_iff_eq] at hw
    rcases hw with ((rfl | rfl) | rfl) | rfl <;> exact absurd hc (by decide)

theorem skip0_crumbText {nv : List UInt8 × List UInt8} (h : CrumbOk nv) (rest : List UInt8) :
    skip0 (crumbText nv ++ rest) = crumbText nv ++ rest := by
  obtain ⟨c, w, hcw⟩ := List.exists_cons_of_ne_nil h.1
  simp only [crumbText, hcw, List.cons_append]
  exact skip0_stop (wordchar_start (h.2.1 c (by simp [hcw]))).2.2 _

theorem skip0_space (s : List UInt8) : skip0 (space :: s) = skip0 s := by
  simp [skip0, skipwhite_false, whitespace]

/-- One pair and the separator or NUL after it: the pair is recorded and the loop goes on there. -/
theorem cookieLoop_crumbText {nv : List UInt8 × List UInt8} (h : CrumbOk nv) {rest : List UInt8}
    (hr : skip0 rest = rest)
    (hs : atNul rest || rest.head? = some comma || rest.head? = some semicolon) (cd : CookieData) :
    cookieLoop (crumbText nv ++ rest) cd =
      match record cd nv with
      | .error msg => .refused (some msg)
      | .ok cd => cookieLoop rest cd := by
  obtain ⟨n, v⟩ := nv
  obtain ⟨c, w, rfl⟩ := List.exists_cons_of_ne_nil h.1
  obtain ⟨h0, hsep, -⟩ := wordchar_start (h.2.1 c (List.mem_cons_self _ _))
  have hcr := crumb_crumbText h rest
  simp only [crumbText, List.cons_append] at hcr ⊢
  rw [cookieLoop_crumb h0 hsep hcr, hr]
  cases record cd (c :: w, v) <;> simp [hs]

/-- What the loop returns for the fold of `record`: the cookies, or the message it logs. -/
def CookieParse.ofExcept : Except String CookieData → CookieParse
  | .ok cd => .ok cd
  | .error msg => .refused (some msg)

theorem skip0_crumbsText {nvs : List (List UInt8 × List UInt8)} (h : ∀ nv ∈ nvs, CrumbOk nv)
    (after : List UInt8) : skip0 (crumbsText nvs ++ 0 :: after) = crumbsText nvs ++ 0 :: after := by
  match nvs with
  | [] => exact skip0_stop (by decide) _
  | [nv] => exact skip0_crumbText (h nv (List.mem_singleton_self _)) _
  | nv :: _ :: _ =>
    simp only [crumbsText, List.append_assoc]
    exact skip0_crumbText (h nv (List.mem_cons_self _ _)) _

theorem cookieLoop_crumbs {nvs : List (List UInt8 × List UInt8)} (h : ∀ nv ∈ nvs, CrumbOk nv)
    (after : List UInt8) (cd : CookieData) :
    cookieLoop (crumbsText nvs ++ 0 :: after) cd = .ofExcept (nvs.foldlM record cd) := by
  induction nvs using crumbsText.induct generalizing cd with
  | case1 => exact cookieLoop_nul after cd
  | case2 nv =>
    rw [crumbsText, cookieLoop_crumbText (h nv (List.mem_singleton_self _))
      (skip0_stop (by decide) _) (by simp [atNul])]
    cases hr : record cd nv <;> simp [hr, cookieLoop_nul, CookieParse.ofExcept]
  | case3 nv nv' nvs ih =>
    have ht : ∀ x ∈ nv' :: nvs, CrumbOk x := fun x hx => h x (List.mem_cons_of_mem _ hx)
    rw [crumbsText, List.append_assoc, List.cons_append, List.cons_append,
      cookieLoop_crumbText (h nv (List.mem_cons_self _ _)) (skip0_stop (by decide) _) (by simp)]
    rw [List.foldlM_cons]
    cases record cd nv with
    | error msg => rfl
    | ok cd' =>
      dsimp only [bind, Except.bind]
      rw [cookieLoop_sep (Or.inl rfl), skip0_space, skip0_crumbsText ht, ih ht]

/-- The pairs a client writes for one cookie: its name, then its `$Path` and `$Domain`. -/
def cookiePairs (c : Cookie) : List (List UInt8 × List UInt8) :=
  (c.name, c.value) ::
    ((c.path.map (ascii "$Path", ·)).toList ++ (c.domain.map (ascii "$Domain", ·)).toList)

/-- A Cookie: header as a client writes it: `$Version` first, then each cookie. -/
def cookieHeader (cd : CookieData) : List UInt8 :=
  crumbsText ((cd.version.map (ascii "$Version", ·)).toList ++ cd.cookies.flatMap cookiePairs)

/-- A cookie a client can send: a name of token bytes not starting with `$`, and no NUL in what
it sends. -/
def CookieOk (c : Cookie) : Prop :=
  c.name ≠ [] ∧ (∀ b ∈ c.name, iswordchar httpSeparator b) ∧ c.name.head? ≠ some dollar ∧
    0 ∉ c.value ∧ (∀ p ∈ c.path, 0 ∉ p) ∧ (∀ d ∈ c.domain, 0 ∉ d)

instance : DecidablePred CookieOk := fun _ => by unfold CookieOk; infer_instance

/-- A `$` name the client writes, with a value with no NUL, is a pair it may write. -/
theorem crumbOk_dollar {name : String} (hn : ∀ b ∈ ascii name, iswordchar httpSeparator b)
    (hne : ascii name ≠ []) {v : List UInt8} (hv : 0 ∉ v) : CrumbOk (ascii name, v) :=
  ⟨hne, hn, hv⟩

theorem crumbOk_cookiePairs {c : Cookie} (hc : CookieOk c) : ∀ nv ∈ cookiePairs c, CrumbOk nv := by
  obtain ⟨hn, hw, -, hv, hp, hd⟩ := hc
  simp only [cookiePairs, List.mem_cons, List.mem_append, Option.mem_toList, Option.mem_def,
    Option.map_eq_some']
  rintro nv (rfl | ⟨p, hp', rfl⟩ | ⟨d, hd', rfl⟩)
  · exact ⟨hn, hw, hv⟩
  · exact crumbOk_dollar (by decide) (by decide) (hp p hp')
  · exact crumbOk_dollar (by decide) (by decide) (hd d hd')

/-- The fold over one cookie's pairs adds exactly that cookie: the name adds it bare, and its
`$Path` and `$Domain` fill it in. -/
theorem foldlM_cookiePairs {c : Cookie} (hc : CookieOk c) (cd : CookieData) :
    (cookiePairs c).foldlM record cd = .ok { cd with cookies := cd.cookies ++ [c] } := by
  obtain ⟨n, v, p, d⟩ := c
  have hn : n.head? ≠ some dollar := hc.2.2.1
  have hp : (ascii "$Path").head? = some dollar := by decide
  have hd : (ascii "$Domain").head? = some dollar := by decide
  have hpv : ascii "$Path" ≠ ascii "$Version" := by decide
  have hdv : ascii "$Domain" ≠ ascii "$Version" := by decide
  have hdp : ascii "$Domain" ≠ ascii "$Path" := by decide
  cases p <;> cases d <;>
    simp [cookiePairs, record, attach, hn, hp, hd, hpv, hdv, hdp, bind, Except.bind] <;> rfl

theorem foldlM_cookies {cs : List Cookie} (hc : ∀ c ∈ cs, CookieOk c) (cd : CookieData) :
    (cs.flatMap cookiePairs).foldlM record cd = .ok { cd with cookies := cd.cookies ++ cs } := by
  induction cs generalizing cd with
  | nil => simp; rfl
  | cons c cs ih =>
    rw [List.flatMap_cons, List.foldlM_append,
      foldlM_cookiePairs (hc c (List.mem_cons_self _ _))]
    refine (ih (fun c h => hc c (List.mem_cons_of_mem _ h)) { cd with cookies := _ }).trans ?_
    simp

theorem parseCookie_header {cd : CookieData} (hv : ∀ v ∈ cd.version, 0 ∉ v)
    (hc : ∀ c ∈ cd.cookies, CookieOk c) (after : List UInt8) :
    parseCookie (cookieHeader cd ++ 0 :: after) = .ok cd := by
  obtain ⟨version, cs⟩ := cd
  have hver : ∀ nv ∈ (version.map (ascii "$Version", ·)).toList, CrumbOk nv := by
    cases version <;> simp
    exact crumbOk_dollar (by decide) (by decide) (hv _ rfl)
  have hok : ∀ nv ∈ (version.map (ascii "$Version", ·)).toList ++ cs.flatMap cookiePairs,
      CrumbOk nv := by
    simp only [List.mem_append, List.mem_flatMap]
    rintro nv (h | ⟨c, hc', h⟩)
    exacts [hver nv h, crumbOk_cookiePairs (hc c hc') nv h]
  have hfold : ((version.map (ascii "$Version", ·)).toList).foldlM record ⟨none, []⟩ =
      .ok ⟨version, []⟩ := by
    have hd : (ascii "$Version").head? = some dollar := by decide
    cases version <;> simp [record, bind, Except.bind, hd] <;> rfl
  rw [parseCookie, cookieHeader, skip0_crumbsText hok, cookieLoop_crumbs hok, List.foldlM_append,
    hfold]
  simpa [CookieParse.ofExcept] using congrArg CookieParse.ofExcept (foldlM_cookies hc ⟨version, []⟩)

theorem parseCookie_header_session :
    parseCookie (cookieHeader ⟨some (ascii "1"), [⟨ascii "sid", ascii "a;b", some (ascii "/"), none⟩,
        ⟨ascii "lang", ascii "en", none, some (ascii "example.org")⟩]⟩ ++ 0 :: ascii "junk") =
      .ok ⟨some (ascii "1"), [⟨ascii "sid", ascii "a;b", some (ascii "/"), none⟩,
        ⟨ascii "lang", ascii "en", none, some (ascii "example.org")⟩]⟩ :=
  parseCookie_header (by decide) (by decide) _

end Disorder.Mime

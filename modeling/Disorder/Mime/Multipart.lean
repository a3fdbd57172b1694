import Mathlib.Data.List.Infix

/-! `mime_multipart` of lib/mime.c, which splits a multipart body at its boundary lines and hands
each part to a callback. A string is the list of its bytes from the pointer on; a NUL byte, or the
end of the list, ends it. None of the functions here reads past the NUL.

The loop steps from boundary line to boundary line with `strstr(s, "\r\n") + 2`, which would
dereference `NULL + 2` if a boundary line had no CRLF; it never has, because the loop is only ever
at a boundary (`mimeMultipart_ne_none`). On a body written as RFC 2046 s5.1 writes it, with no
line of a part beginning with the dash-boundary, the callback sees exactly the parts, in order
(`mimeMultipart_encapsulate`). -/

namespace Disorder.Mime

/-- `\r`, `\n` and `-`. -/
def cr : UInt8 := 13
def lf : UInt8 := 10
def dash : UInt8 := 45

def crlf : List UInt8 := [cr, lf]
def dashes : List UInt8 := [dash, dash]

/-- `iscrlf`. -/
def iscrlf : List UInt8 → Bool
  | c :: d :: _ => c == cr && d == lf
  | _ => false

/-- `*p == 0`. -/
def atNul : List UInt8 → Bool
  | [] => true
  | c :: _ => c == 0

/-- `--` and the boundary: what follows them, if the string begins so (`!strncmp(ptr + 2, boundary,
bl)` with `bl = strlen(boundary)`). -/
def dashBoundary (boundary : List UInt8) : List UInt8 → Option (List UInt8)
  | c :: d :: t => if c = dash ∧ d = dash ∧ boundary <+: t then some (t.drop boundary.length) else none
  | _ => none

/-- `--`, then CRLF or the end of the string: what closes the final boundary. -/
def closes : List UInt8 → Bool
  | c :: d :: v => c == dash && d == dash && (iscrlf v || atNul v)
  | _ => false

/-- `isboundary`. -/
def isboundary (boundary s : List UInt8) : Bool :=
  match dashBoundary boundary s with
  | some u => iscrlf u || closes u
  | none => false

/-- `isfinal`. -/
def isfinal (boundary s : List UInt8) : Bool :=
  match dashBoundary boundary s with
  | some u => closes u
  | none => false

/-- `strstr(s, "\r\n") + 2`: the string after its first CRLF; `none` where `strstr` finds none. -/
def afterCrlf : List UInt8 → Option (List UInt8)
  | [] => none
  | c :: s => if c = 0 then none else if c = cr ∧ s.head? = some lf then some s.tail else afterCrlf s

theorem afterCrlf_length {s t : List UInt8} (h : afterCrlf s = some t) : t.length < s.length := by
  induction s with
  | nil => cases h
  | cons c s ih =>
    simp only [afterCrlf] at h
    split_ifs at h
    · cases h; simp only [List.length_tail, List.length_cons]; omega
    · exact Nat.lt_succ_of_lt (ih h)

/-- The inner loop of `mime_multipart`: from a line start, lines are passed over until one begins
with a boundary; `none` when the string ends first (`return -1`). -/
def seek (boundary s : List UInt8) : Option (List UInt8) :=
  if isboundary boundary s then some s
  else
    match h : afterCrlf s with
    | none => none
    | some t =>
      have := afterCrlf_length h
      seek boundary t
termination_by s.length

theorem seek_length {boundary s t : List UInt8} (h : seek boundary s = some t) :
    t.length ≤ s.length := by
  induction s using seek.induct boundary with
  | case1 s hb => rw [seek, if_pos hb] at h; cases h; exact le_rfl
  | case2 s hb ha => rw [seek, if_neg hb] at h; split at h <;> simp_all
  | case3 s hb t ha _ ih =>
    rw [seek, if_neg hb] at h
    split at h
    · simp_all
    · rename_i t' ha'
      cases ha.symm.trans ha'
      exact (ih h).trans (afterCrlf_length ha).le

/-- `xstrndup(start, s == start ? 0 : s - start - 2)`: the part from `start` to the CRLF before the
boundary line at `s`. -/
def piece (start s : List UInt8) : List UInt8 :=
  start.take (if s.length = start.length then 0 else start.length - s.length - 2)

section Loop

variable {σ : Type} (callback : List UInt8 → σ → Int × σ) (boundary : List UInt8)

/-- The loop of `mime_multipart`, from a boundary line: each part, from after the line's CRLF to
the CRLF before the next boundary (`s == start ? 0 : s - start - 2` bytes), goes to the callback,
until the final boundary. A non-zero return from the callback ends the loop with it. `none` is the
crash of `strstr(s, "\r\n") + 2` where `strstr` finds no CRLF. -/
def parts (s : List UInt8) (u : σ) : Option (Int × σ) :=
  if isfinal boundary s then some (0, u)
  else
    match h : afterCrlf s with
    | none => none
    | some start =>
      match h' : seek boundary start with
      | none => some (-1, u)
      | some s' =>
        let r := callback (piece start s') u
        if r.1 ≠ 0 then some r
        else
          have := (seek_length h').trans_lt (afterCrlf_length h)
          parts s' r.2
termination_by s.length

/-- `mime_multipart`: `-1` unless the body begins with a boundary. -/
def mimeMultipart (s : List UInt8) (u : σ) : Option (Int × σ) :=
  if isboundary boundary s then parts callback boundary s u else some (-1, u)

end Loop

/-! ### `strstr` on appended strings -/

@[simp] theorem afterCrlf_crlf (s : List UInt8) : afterCrlf (crlf ++ s) = some s := by
  simp [afterCrlf, crlf, cr, lf]

/-- A CRLF of `y` is the first CRLF of `y ++ w` too. -/
theorem afterCrlf_append_of_some {y y' : List UInt8} (h : afterCrlf y = some y') (w : List UInt8) :
    afterCrlf (y ++ w) = some (y' ++ w) := by
  induction y with
  | nil => cases h
  | cons c y ih =>
    simp only [afterCrlf] at h
    split_ifs at h with h0 hc
    · cases h
      obtain ⟨rfl, hl⟩ := hc
      obtain ⟨d, y, rfl⟩ : ∃ d y'', y = d :: y'' := List.exists_cons_of_ne_nil (by rintro rfl; cases hl)
      simp_all [afterCrlf]
    · simp [afterCrlf, h0, ih h]
      rintro rfl hl
      obtain ⟨d, y, rfl⟩ : ∃ d y'', y = d :: y'' := List.exists_cons_of_ne_nil (by rintro rfl; cases h)
      simp_all

/-- Over a string with no NUL and no CRLF, the first CRLF of `y ++ crlf ++ z` is the one appended. -/
theorem afterCrlf_append_of_none {y : List UInt8} (hy : 0 ∉ y) (h : afterCrlf y = none)
    (z : List UInt8) : afterCrlf (y ++ crlf ++ z) = some z := by
  induction y with
  | nil => simp
  | cons c y ih =>
    have hc : c ≠ 0 := fun hc => hy (hc ▸ List.mem_cons_self _ _)
    simp only [afterCrlf, hc, if_false] at h
    split_ifs at h with hcl
    have hn : ¬ (c = cr ∧ (y ++ crlf ++ z).head? = some lf) := by
      cases y <;> simp_all [crlf, cr, lf]
    rw [List.cons_append, List.cons_append, afterCrlf, if_neg hc, if_neg hn]
    exact ih (fun h0 => hy (List.mem_cons_of_mem _ h0)) h

theorem afterCrlf_suffix {y y' : List UInt8} (h : afterCrlf y = some y') : crlf ++ y' <:+ y := by
  induction y with
  | nil => cases h
  | cons c y ih =>
    simp only [afterCrlf] at h
    split_ifs at h with h0 hc
    · cases h
      obtain ⟨rfl, hl⟩ := hc
      obtain ⟨d, y, rfl⟩ : ∃ d y'', y = d :: y'' := List.exists_cons_of_ne_nil (by rintro rfl; cases hl)
      cases hl
      exact List.suffix_refl _
    · exact (ih h).trans (List.suffix_cons _ _)

theorem afterCrlf_of_cr_not_mem {y : List UInt8} (hy : cr ∉ y) : afterCrlf y = none := by
  induction y with
  | nil => rfl
  | cons c y ih =>
    have hc : c ≠ cr := fun hc => hy (hc ▸ List.mem_cons_self _ _)
    simp [afterCrlf, hc, ih fun h => hy (List.mem_cons_of_mem _ h)]

/-! ### Boundary lines -/

theorem dashBoundary_append (boundary w : List UInt8) :
    dashBoundary boundary (dashes ++ boundary ++ w) = some w := by
  simp [dashBoundary, dashes]

theorem dashBoundary_eq_some {boundary s u : List UInt8} (h : dashBoundary boundary s = some u) :
    s = dashes ++ boundary ++ u := by
  match s, h with
  | c :: d :: t, h =>
    simp only [dashBoundary] at h
    split_ifs at h with hc
    obtain ⟨rfl, rfl, w, rfl⟩ := hc
    cases h
    simp [dashes]

/-- A prefix with no `a` in it that is a prefix of `y ++ a :: z` is a prefix of `y`. -/
theorem prefix_of_prefix_append_cons {x y z : List UInt8} {a : UInt8} (ha : a ∉ x)
    (h : x <+: y ++ a :: z) : x <+: y := by
  rcases List.prefix_or_prefix_of_prefix h (List.prefix_append y (a :: z)) with hx | ⟨r, rfl⟩
  · exact hx
  · obtain ⟨w, hw⟩ := h
    rw [List.append_assoc, List.append_cancel_left_eq] at hw
    cases r with
    | nil => simp
    | cons b r =>
      cases hw
      exact absurd (List.mem_append_right _ (List.mem_cons_self _ _)) ha

theorem not_mem_dashes_append {a : UInt8} {boundary : List UInt8} (ha : a ≠ dash)
    (hb : a ∉ boundary) : a ∉ dashes ++ boundary := by
  simp [dashes, ha, hb]

/-- A line that does not begin with the dash-boundary is no boundary line. -/
theorem isboundary_line {boundary y z : List UInt8} (hb : cr ∉ boundary)
    (hy : ¬ dashes ++ boundary <+: y) : isboundary boundary (y ++ crlf ++ z) = false := by
  have : dashBoundary boundary (y ++ crlf ++ z) = none := by
    cases hd : dashBoundary boundary (y ++ crlf ++ z) with
    | none => rfl
    | some u =>
      have hx := dashBoundary_eq_some hd
      refine absurd (prefix_of_prefix_append_cons (a := cr) (z := lf :: z)
        (not_mem_dashes_append (by decide) hb) ⟨u, ?_⟩) hy
      simpa [crlf] using hx.symm
  rw [isboundary, this]

theorem eq_crlf_append_of_iscrlf {u : List UInt8} (h : iscrlf u) : ∃ w, u = crlf ++ w := by
  match u, h with
  | c :: d :: w, h =>
    simp only [iscrlf, Bool.and_eq_true, beq_iff_eq] at h
    obtain ⟨rfl, rfl⟩ := h
    exact ⟨w, rfl⟩

/-- At a boundary line that is not the final one, `strstr` finds the CRLF that ends the line. -/
theorem afterCrlf_of_isboundary {boundary s : List UInt8} (hb : 0 ∉ boundary)
    (h : isboundary boundary s) (hf : isfinal boundary s = false) : ∃ t, afterCrlf s = some t := by
  cases hd : dashBoundary boundary s with
  | none => simp [isboundary, hd] at h
  | some u =>
    simp only [isboundary, isfinal, hd] at h hf
    obtain ⟨w, rfl⟩ := eq_crlf_append_of_iscrlf (by simpa [hf] using h)
    rw [dashBoundary_eq_some hd]
    cases ha : afterCrlf (dashes ++ boundary) with
    | none =>
      rw [← List.append_assoc]
      exact ⟨w, afterCrlf_append_of_none (not_mem_dashes_append (by decide) hb) ha w⟩
    | some y => exact ⟨_, afterCrlf_append_of_some ha _⟩

theorem seek_of_isboundary {boundary s : List UInt8} (h : isboundary boundary s) :
    seek boundary s = some s := by
  rw [seek, if_pos h]

theorem seek_of_afterCrlf {boundary s t : List UInt8} (hb : isboundary boundary s = false)
    (h : afterCrlf s = some t) : seek boundary s = seek boundary t := by
  rw [seek, if_neg (by simp [hb])]
  split <;> simp_all

theorem seek_isboundary {boundary s t : List UInt8} (h : seek boundary s = some t) :
    isboundary boundary t := by
  induction s using seek.induct boundary with
  | case1 s hb => rw [seek_of_isboundary hb] at h; cases h; exact hb
  | case2 s hb ha => rw [seek, if_neg hb] at h; split at h <;> simp_all
  | case3 s hb t' ha _ ih => exact ih (by rwa [← seek_of_afterCrlf (by simpa using hb) ha])

/-! ### What a multipart writer sends -/

/-- A multipart body as RFC 2046 s5.1 writes it: the dash-boundary and a CRLF before each part, a
CRLF after it, and `--` after the last dash-boundary. -/
def encapsulate (boundary : List UInt8) : List (List UInt8) → List UInt8
  | [] => dashes ++ boundary ++ dashes
  | p :: ps => dashes ++ boundary ++ crlf ++ p ++ crlf ++ encapsulate boundary ps

/-- A part RFC 2046 lets the writer send: no NUL, and no line beginning with the dash-boundary,
neither the first nor one after a CRLF. -/
def Clean (boundary p : List UInt8) : Prop :=
  0 ∉ p ∧ ¬ dashes ++ boundary <+: p ∧ ∀ y, crlf ++ y <:+ p → ¬ dashes ++ boundary <+: y

instance (boundary p : List UInt8) : Decidable (Clean boundary p) :=
  decidable_of_iff (0 ∉ p ∧ ¬ dashes ++ boundary <+: p ∧
      ∀ t ∈ p.tails, iscrlf t → ¬ dashes ++ boundary <+: t.drop 2) <| by
    refine and_congr_right fun _ => and_congr_right fun _ => ⟨fun h y hy => ?_, fun h t ht hc => ?_⟩
    · simpa using h _ ((List.mem_tails _ _).2 hy) (by simp [crlf, iscrlf])
    · match t, hc with
      | c :: d :: y, hc =>
        simp only [iscrlf, Bool.and_eq_true, beq_iff_eq] at hc
        obtain ⟨rfl, rfl⟩ := hc
        exact h y ((List.mem_tails _ _).1 ht)

/-- A suffix that begins with a byte `x` does not have is a suffix of what follows `x`. -/
theorem suffix_of_suffix_append {a : UInt8} {t x z : List UInt8} (ha : a ∉ x)
    (h : a :: t <:+ x ++ z) : a :: t <:+ z := by
  induction x with
  | nil => exact h
  | cons c x ih =>
    rcases List.suffix_cons_iff.1 h with h | h
    · cases h; exact absurd (List.mem_cons_self _ _) ha
    · exact ih (fun h' => ha (List.mem_cons_of_mem _ h')) h

/-- A line with no CR, no NUL and no dash-boundary at its start, before a clean part, makes a
clean part. -/
theorem clean_line {boundary x w : List UInt8} (hb : cr ∉ boundary) (hx0 : 0 ∉ x) (hxc : cr ∉ x)
    (hx : ¬ dashes ++ boundary <+: x) (hw : Clean boundary w) : Clean boundary (x ++ crlf ++ w) := by
  refine ⟨by simp [hx0, hw.1, crlf, cr, lf], fun h => hx (prefix_of_prefix_append_cons
    (not_mem_dashes_append (by decide) hb) (by simpa [crlf] using h)), fun y hy => ?_⟩
  have hy' : cr :: lf :: y <:+ cr :: lf :: w :=
    suffix_of_suffix_append hxc (by simpa [crlf] using hy)
  rcases List.suffix_cons_iff.1 hy' with h | h
  · cases h; exact hw.2.1
  · rcases List.suffix_cons_iff.1 h with h | h
    · cases h
    · exact hw.2.2 y (by simpa [crlf] using h)

/-- What a callback makes of each item in turn, until it returns non-zero. -/
def callEach {α σ : Type} (callback : α → σ → Int × σ) : List α → σ → Int × σ
  | [], u => (0, u)
  | p :: ps, u => let r := callback p u; if r.1 ≠ 0 then r else callEach callback ps r.2

theorem dashBoundary_encapsulate_nil (boundary tail : List UInt8) :
    dashBoundary boundary (encapsulate boundary [] ++ tail) = some (dashes ++ tail) := by
  rw [← dashBoundary_append boundary]; simp [encapsulate]

theorem dashBoundary_encapsulate_cons (boundary p : List UInt8) (ps : List (List UInt8))
    (tail : List UInt8) : dashBoundary boundary (encapsulate boundary (p :: ps) ++ tail) =
      some (crlf ++ (p ++ crlf ++ (encapsulate boundary ps ++ tail))) := by
  rw [← dashBoundary_append boundary]; simp [encapsulate]

theorem isboundary_encapsulate (boundary : List UInt8) (ps : List (List UInt8)) {tail : List UInt8}
    (ht : iscrlf tail || atNul tail) : isboundary boundary (encapsulate boundary ps ++ tail) := by
  cases ps with
  | nil => simpa [isboundary, dashBoundary_encapsulate_nil, closes, dashes, iscrlf, dash, cr] using ht
  | cons p ps => simp [isboundary, dashBoundary_encapsulate_cons, crlf, iscrlf]

/-- From any line start of a clean part, the inner loop passes over the rest of the part and stops
at the boundary line after it. -/
theorem seek_part {boundary p z : List UInt8} (hb : cr ∉ boundary) (hp : Clean boundary p)
    (hz : isboundary boundary z) {y : List UInt8} (hy : y <:+ p) (hl : y = p ∨ crlf ++ y <:+ p) :
    seek boundary (y ++ crlf ++ z) = some z := by
  obtain ⟨n, hn⟩ : ∃ n, y.length = n := ⟨_, rfl⟩
  induction n using Nat.strong_induction_on generalizing y with
  | _ n ih =>
    have hline : isboundary boundary (y ++ crlf ++ z) = false := by
      refine isboundary_line hb ?_
      rcases hl with rfl | hl
      exacts [hp.2.1, hp.2.2 y hl]
    cases ha : afterCrlf y with
    | none =>
      rw [seek_of_afterCrlf hline (afterCrlf_append_of_none (fun h => hp.1 (hy.subset h)) ha z),
        seek_of_isboundary hz]
    | some y' =>
      have hs := afterCrlf_suffix ha
      have ha' := afterCrlf_append_of_some ha (crlf ++ z)
      rw [← List.append_assoc, ← List.append_assoc] at ha'
      rw [seek_of_afterCrlf hline ha']
      exact ih _ (hn ▸ afterCrlf_length ha) ((List.suffix_append _ _).trans (hs.trans hy))
        (.inr (hs.trans hy)) rfl

section Loop

variable {σ : Type} (callback : List UInt8 → σ → Int × σ) (boundary : List UInt8)

theorem piece_append (p z : List UInt8) : piece (p ++ crlf ++ z) z = p := by
  have h : (if z.length = (p ++ crlf ++ z).length then 0
      else (p ++ crlf ++ z).length - z.length - 2) = p.length := by
    simp only [List.length_append, crlf, List.length_cons, List.length_nil]
    split <;> omega
  rw [piece, h, List.append_assoc, List.take_left]

theorem parts_final {s : List UInt8} (h : isfinal boundary s) (u : σ) :
    parts callback boundary s u = some (0, u) := by
  rw [parts, if_pos h]

theorem parts_seek_none {s start : List UInt8} (hf : isfinal boundary s = false)
    (ha : afterCrlf s = some start) (hs : seek boundary start = none) (u : σ) :
    parts callback boundary s u = some (-1, u) := by
  rw [parts, if_neg (by simp [hf])]
  split
  · simp_all
  · rename_i start' ha'
    cases ha.symm.trans ha'
    split <;> simp_all

theorem parts_step {s start s' : List UInt8} (hf : isfinal boundary s = false)
    (ha : afterCrlf s = some start) (hs : seek boundary start = some s') (u : σ) :
    parts callback boundary s u =
      let r := callback (piece start s') u
      if r.1 ≠ 0 then some r else parts callback boundary s' r.2 := by
  rw [parts, if_neg (by simp [hf])]
  split
  · simp_all
  · rename_i start' ha'
    cases ha.symm.trans ha'
    split <;> simp_all

/-- The loop over a body that a writer sent, from its first boundary line on: the callback sees each
part, in order. -/
theorem parts_encapsulate (hb : 0 ∉ boundary ∧ cr ∉ boundary) {tail : List UInt8}
    (ht : iscrlf tail || atNul tail) :
    ∀ (ps : List (List UInt8)), (∀ p ∈ ps, Clean boundary p) → ∀ u : σ,
      parts callback boundary (encapsulate boundary ps ++ tail) u = some (callEach callback ps u)
  | [], _, u => parts_final callback boundary
      (by simpa [isfinal, dashBoundary_encapsulate_nil, closes, dashes] using ht) u
  | p :: ps, hps, u => by
    have hrest := isboundary_encapsulate boundary ps ht
    have hf : isfinal boundary (encapsulate boundary (p :: ps) ++ tail) = false := by
      simp [isfinal, dashBoundary_encapsulate_cons, closes, crlf, cr, dash]
    have ha : afterCrlf (encapsulate boundary (p :: ps) ++ tail) =
        some (p ++ crlf ++ (encapsulate boundary ps ++ tail)) := by
      have h := afterCrlf_append_of_none (y := dashes ++ boundary)
        (not_mem_dashes_append (by decide) hb.1)
        (afterCrlf_of_cr_not_mem (not_mem_dashes_append (by decide) hb.2))
        (p ++ crlf ++ (encapsulate boundary ps ++ tail))
      simpa [encapsulate] using h
    have hs := seek_part hb.2 (hps p (List.mem_cons_self _ _)) hrest (List.suffix_refl p) (.inl rfl)
    rw [parts_step callback boundary hf ha hs]
    simp only [piece_append, callEach]
    split
    · rfl
    · exact parts_encapsulate hb ht ps (fun q hq => hps q (List.mem_cons_of_mem _ hq)) _

/-- `mime_multipart` on a body that a writer sent, followed by CRLF or the end of the string: the
callback is called on each part, in order, and what it returns is what `mime_multipart` returns. -/
theorem mimeMultipart_encapsulate (hb : 0 ∉ boundary ∧ cr ∉ boundary) {ps : List (List UInt8)}
    (hps : ∀ p ∈ ps, Clean boundary p) {tail : List UInt8} (ht : iscrlf tail || atNul tail) (u : σ) :
    mimeMultipart callback boundary (encapsulate boundary ps ++ tail) u =
      some (callEach callback ps u) := by
  rw [mimeMultipart, if_pos (isboundary_encapsulate boundary ps ht)]
  exact parts_encapsulate callback boundary hb ht ps hps u

/-- Two parts, `hi` and an empty one, under the boundary `x`, collected in order. -/
theorem mimeMultipart_encapsulate_hi :
    ((0 : UInt8) ∉ [120] ∧ cr ∉ [120]) ∧ (∀ p ∈ [[104, 105], []], Clean [120] p) ∧
    (iscrlf crlf || atNul crlf) ∧
    mimeMultipart (fun p (ps : List (List UInt8)) => ((0 : Int), ps ++ [p])) [120]
        (encapsulate [120] [[104, 105], []] ++ crlf) [] =
      some (callEach (fun p (ps : List (List UInt8)) => ((0 : Int), ps ++ [p])) [[104, 105], []] []) :=
  ⟨by decide, by decide, by decide, mimeMultipart_encapsulate _ _ (by decide) (by decide) (by decide) _⟩

/-- Every run of the loop from a boundary line ends with a return code: `strstr` always finds the
CRLF that ends the boundary line it starts from. -/
theorem parts_ne_none (hb : 0 ∉ boundary) {s : List UInt8} (hs : isboundary boundary s) (u : σ) :
    parts callback boundary s u ≠ none := by
  obtain ⟨n, hn⟩ : ∃ n, s.length = n := ⟨_, rfl⟩
  induction n using Nat.strong_induction_on generalizing s u with
  | _ n ih =>
    cases hf : isfinal boundary s
    · obtain ⟨start, ha⟩ := afterCrlf_of_isboundary hb hs hf
      cases hk : seek boundary start with
      | none => simp [parts_seek_none callback boundary hf ha hk]
      | some s' =>
        rw [parts_step callback boundary hf ha hk]
        dsimp only
        split
        · simp
        · exact ih _ (hn ▸ (seek_length hk).trans_lt (afterCrlf_length ha)) (seek_isboundary hk) _ rfl
    · simp [parts_final callback boundary hf]

/-- `mime_multipart` never dereferences the `NULL + 2` of a failed `strstr`, whatever the body and
whatever the callback. -/
theorem mimeMultipart_ne_none (hb : 0 ∉ boundary) (s : List UInt8) (u : σ) :
    mimeMultipart callback boundary s u ≠ none := by
  rw [mimeMultipart]
  split
  · exact parts_ne_none callback boundary hb ‹_› u
  · simp

theorem mimeMultipart_ne_none_empty :
    (0 : UInt8) ∉ [120] ∧ mimeMultipart (fun _ (n : Nat) => ((0 : Int), n + 1)) [120] [] 0 ≠ none :=
  ⟨by decide, mimeMultipart_ne_none _ _ (by decide) _ _⟩

end Loop

end Disorder.Mime

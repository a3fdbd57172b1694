import Disorder.Mime.Headers

/-! `mime_qp` of lib/mime.c against a quoted-printable writer. A text is a list of chunks: a byte
written as itself, a byte written as `=XX`, or a soft line break (`=`, blanks, CRLF). The decoder
gives back the bytes of the chunks, soft breaks left out, whatever lies in memory after the NUL, as
long as the writer keeps to what the decoder reads literally: no NUL or `=` written as itself, and
no blank written as itself where blanks and a CRLF follow it, since the decoder drops trailing
blanks (`mimeQp_render`). -/

namespace Disorder.Mime

/-- An upper-case hexadecimal digit, as a writer puts it after `=`. -/
def hexDigit (n : Nat) : UInt8 := if n < 10 then (48 + n).toUInt8 else (55 + n).toUInt8

/-- A piece of quoted-printable text. -/
inductive QpChunk where
  | lit (c : UInt8)
  | esc (c : UInt8)
  | soft (blanks : List UInt8)
  deriving DecidableEq, Repr

/-- The bytes a writer puts down for a chunk. -/
def QpChunk.text : QpChunk → List UInt8
  | .lit c => [c]
  | .esc c => [equals, hexDigit (c.toNat / 16), hexDigit (c.toNat % 16)]
  | .soft blanks => equals :: blanks ++ crlf

/-- The bytes a chunk stands for. -/
def QpChunk.bytes : QpChunk → List UInt8
  | .lit c => [c]
  | .esc c => [c]
  | .soft _ => []

/-- What the writer keeps to: no NUL or `=` as itself, a soft break padded with blanks only, and no
blank as itself before blanks and a CRLF. -/
def qpOk : List QpChunk → Bool
  | [] => true
  | .lit c :: cs =>
    c != 0 && c != equals && !(isBlank c && iscrlf ((cs.flatMap QpChunk.text).dropWhile isBlank)) &&
      qpOk cs
  | .esc _ :: cs => qpOk cs
  | .soft blanks :: cs => blanks.all isBlank && qpOk cs

theorem unhexdigitq_hexDigit : ∀ n : Fin 16, unhexdigitq (hexDigit n) = n := by decide

theorem hexPair_hexDigit (c : UInt8) (s : List UInt8) :
    hexPair (hexDigit (c.toNat / 16) :: hexDigit (c.toNat % 16) :: s) = some (c, s) := by
  have hc := UInt8.toNat_lt_size c
  have hhi : c.toNat / 16 < 16 := by unfold UInt8.size at hc; omega
  have ha := unhexdigitq_hexDigit ⟨_, hhi⟩
  have hb := unhexdigitq_hexDigit ⟨_, Nat.mod_lt c.toNat (by decide)⟩
  have hv : ((c.toNat / 16 : Nat) * 16 + (c.toNat % 16 : Nat) : Int).toNat = c.toNat := by omega
  simp only at ha hb
  rw [hexPair, ha, hb, if_pos ⟨by omega, by omega⟩, hv,
    show c.toNat.toUInt8 = c from UInt8.toNat.inj (UInt8.toNat_ofNat_of_lt hc)]

theorem hexPair_of_unhex {a : UInt8} (ha : unhexdigitq a = -1) (s : List UInt8) :
    hexPair (a :: s) = none := by
  cases s <;> simp [hexPair, ha]

theorem unhexdigitq_blank {a : UInt8} (ha : isBlank a) : unhexdigitq a = -1 := by
  simp only [isBlank, Bool.or_eq_true, beq_iff_eq] at ha
  rcases ha with rfl | rfl <;> decide

theorem iscrlf_append_nul (x after : List UInt8) : iscrlf (x ++ 0 :: after) = iscrlf x := by
  match x with
  | [] => cases after <;> simp [iscrlf, cr]
  | [a] => simp [iscrlf, lf]
  | _ :: _ :: _ => rfl

theorem dropWhile_blank_append_nul (x after : List UInt8) :
    (x ++ 0 :: after).dropWhile isBlank = x.dropWhile isBlank ++ 0 :: after := by
  induction x with
  | nil => simp [isBlank, space, tab]
  | cons a x ih => by_cases ha : isBlank a <;> simp [ha, ih]

theorem mimeQp_nul (s : List UInt8) : mimeQp (0 :: s) = some [] := by
  rw [mimeQp, if_pos rfl]

theorem mimeQp_hex {s s' : List UInt8} {x : UInt8} (h : hexPair s = some (x, s')) :
    mimeQp (equals :: s) = (mimeQp s').map (x :: ·) := by
  rw [mimeQp, if_neg (by decide), if_pos rfl]
  split
  · rename_i x' s'' h'
    obtain ⟨rfl, rfl⟩ : x = x' ∧ s' = s'' := by simpa using h.symm.trans h'
    rfl
  · simp_all

theorem mimeQp_soft {s : List UInt8} (h : hexPair s = none) (hc : iscrlf (s.dropWhile isBlank)) :
    mimeQp (equals :: s) = mimeQp ((s.dropWhile isBlank).drop 2) := by
  rw [mimeQp, if_neg (by decide), if_pos rfl]
  split
  · simp_all
  · rw [if_pos hc]

theorem mimeQp_lit {c : UInt8} {s : List UInt8} (h0 : c ≠ 0) (he : c ≠ equals)
    (hb : ¬ (isBlank c ∧ iscrlf (s.dropWhile isBlank))) : mimeQp (c :: s) = (mimeQp s).map (c :: ·) := by
  rw [mimeQp, if_neg h0, if_neg he]
  by_cases hc : isBlank c
  · rw [if_pos hc, if_neg fun h => hb ⟨hc, h⟩]
  · rw [if_neg hc]

/-- A soft line break, `=`, blanks and CRLF, stands for nothing. -/
theorem mimeQp_softBreak {blanks : List UInt8} (hb : ∀ a ∈ blanks, isBlank a) (rest : List UInt8) :
    mimeQp (equals :: (blanks ++ (crlf ++ rest))) = mimeQp rest := by
  have hd : (blanks ++ (crlf ++ rest)).dropWhile isBlank = crlf ++ rest := by
    rw [List.dropWhile_append_of_pos hb]; rfl
  have hn : hexPair (blanks ++ (crlf ++ rest)) = none := by
    cases blanks with
    | nil => exact hexPair_of_unhex (by decide) _
    | cons a _ => exact hexPair_of_unhex (unhexdigitq_blank (hb a (List.mem_cons_self _ _))) _
  rw [mimeQp_soft hn (by rw [hd]; rfl), hd]
  rfl

theorem mimeQp_render {cs : List QpChunk} (h : qpOk cs) (after : List UInt8) :
    mimeQp (cs.flatMap QpChunk.text ++ 0 :: after) = some (cs.flatMap QpChunk.bytes) := by
  induction cs with
  | nil => exact mimeQp_nul after
  | cons ch cs ih =>
    simp only [List.flatMap_cons, List.append_assoc]
    cases ch with
    | lit c =>
      simp only [qpOk, Bool.and_eq_true, bne_iff_ne, ne_eq, Bool.not_eq_true'] at h
      obtain ⟨⟨⟨h0, he⟩, hb⟩, h⟩ := h
      rw [QpChunk.text, List.singleton_append, mimeQp_lit h0 he
        (by simpa [dropWhile_blank_append_nul, iscrlf_append_nul] using hb), ih h]
      rfl
    | esc c =>
      simp only [QpChunk.text, List.cons_append, List.nil_append]
      rw [mimeQp_hex (hexPair_hexDigit c _), ih h]
      rfl
    | soft blanks =>
      simp only [qpOk, Bool.and_eq_true, List.all_eq_true] at h
      simp only [QpChunk.text, QpChunk.bytes, List.cons_append, List.append_assoc, List.nil_append]
      rw [mimeQp_softBreak h.1, ih h.2]

theorem mimeQp_render_soft :
    mimeQp ([.lit 97, .lit space, .esc equals, .soft [space, tab], .esc 0, .lit cr, .lit lf].flatMap
        QpChunk.text ++ [0]) = some [97, space, equals, 0, cr, lf] :=
  (mimeQp_render (by decide) []).trans rfl

end Disorder.Mime

import Mathlib.Data.List.Basic

/-! The bytes the simple client writes for one command (`disorder_simple_v` in lib/client.c): the
command name, each argument quoted with `quoteutf8` after a space, a newline, and then, for
`disorder__body`, the dot-stuffed body. Proved: the `disorder__list` branch appends the quoted list
*marker* once per list element and never reads the elements, so a list argument is sent as that many
copies of the marker; with an injective quoting function the line therefore differs from the one
sent for the same elements passed one by one. Write errors of the sink are not modelled. -/

namespace Disorder.Client

/-! ### Quoting -/

/-- A character that `split` treats specially: whitespace, the double quote and the backslash. -/
def specialChar (ch : Char) : Bool :=
  ch = ' ' || ch = '\t' || ch = '\n' || ch = '"' || ch = '\\'

/-- A word that can be sent as it is. -/
def bareWord (s : String) : Bool :=
  !s.isEmpty && s.toList.all (fun ch => !specialChar ch)

/-- The escape of one character inside double quotes. -/
def escapeChar (ch : Char) : List Char :=
  if ch = '"' ∨ ch = '\\' then ['\\', ch] else [ch]

/-- Modelled from the spec: `quoteutf8` (lib/quote.c is missing). The server splits a line on
whitespace and reads double-quoted strings with `\\` and `\"` escapes, so a word with none of those
characters is sent bare and any other word is put in double quotes with its quotes and backslashes
escaped. -/
def quoteutf8 (s : String) : String :=
  if bareWord s then s else ⟨'"' :: s.toList.flatMap escapeChar ++ ['"']⟩

/-- How `split` reads the inside of a quoted word back: a backslash takes the next character as it is. -/
def unescape : List Char → List Char
  | '\\' :: ch :: rest => ch :: unescape rest
  | ch :: rest => ch :: unescape rest
  | [] => []

theorem unescape_escape (s : List Char) : unescape (s.flatMap escapeChar) = s := by
  induction s with
  | nil => rfl
  | cons ch s ih =>
    by_cases h : ch = '"' ∨ ch = '\\'
    · simp [escapeChar, h, unescape, ih]
    · have hb : ch ≠ '\\' := fun e => h (.inr e)
      simp only [List.flatMap_cons, escapeChar, if_neg h, List.singleton_append]
      rw [unescape.eq_def]
      split <;> simp_all

theorem bareWord_not_quote {s : String} (hs : bareWord s) (rest : List Char) :
    s.toList ≠ '"' :: rest := by
  intro h
  simp only [bareWord, Bool.and_eq_true, Bool.not_eq_true', String.isEmpty, List.all_eq_true] at hs
  have := hs.2 '"' (by rw [h]; exact List.mem_cons_self _ _)
  simp [specialChar] at this

/-- Quoting loses nothing: different words are sent as different texts. -/
theorem quoteutf8_injective : Function.Injective quoteutf8 := by
  intro s t h
  unfold quoteutf8 at h
  split_ifs at h with hs ht ht
  · exact h
  · exact absurd (congrArg String.toList h) (bareWord_not_quote hs _)
  · exact absurd (congrArg String.toList h).symm (bareWord_not_quote ht _)
  · have h' := congrArg String.toList h
    simp only [String.toList, List.cons.injEq, true_and, List.append_cancel_right_eq] at h'
    exact String.ext (by rw [← unescape_escape s.data, h', unescape_escape])

/-! ### The command line -/

/-- One item of the variadic argument list of `disorder_simple_v`. The markers `disorder__body`,
`disorder__list`, `disorder__integer` and `disorder__time` are told apart from a plain argument by
their address, so each is a constructor of its own; a count of `-1` means a NULL-terminated array. -/
inductive Arg where
  | str (s : String)
  | body (lines : List (List UInt8)) (n : Int)
  | list (items : List String) (n : Int)
  | integer (n : Int)
  | time (t : Int)
  deriving DecidableEq, Repr

/-- The number of array elements used: `n`, or the elements before the NULL when `n < 0`. -/
def vecCount (len : Nat) (n : Int) : Nat := if n < 0 then len else n.toNat

/-- `byte_snprintf(buffer, 16, "%ld", n)`: the decimal text, cut to the 15 bytes the buffer holds. -/
def decimal16 (n : Int) : String := (toString n).take 15

section Line

variable (quote : String → String) (listMarker : String)

/-- What the argument loop appends to the command line for one argument. The list branch appends
`quoteutf8(arg)`, where `arg` is the marker `disorder__list` itself, once per list element. -/
def argText : Arg → List Char
  | .str s => ' ' :: (quote s).toList
  | .body _ _ => []
  | .list items n => (List.replicate (vecCount items.length n) (' ' :: (quote listMarker).toList)).flatten
  | .integer n => ' ' :: (decimal16 n).toList
  | .time t => ' ' :: (decimal16 t).toList

/-- The `dynstr` the loop builds: the command, each argument's text in order, and a newline. -/
def commandLine (cmd : String) (args : List Arg) : List Char :=
  cmd.toList ++ args.flatMap (argText quote listMarker) ++ ['\n']

theorem flatMap_replicate_str (s : String) (k : Nat) :
    (List.replicate k (Arg.str s)).flatMap (argText quote listMarker) =
      (List.replicate k (' ' :: (quote s).toList)).flatten := by
  induction k with
  | zero => rfl
  | succ k ih => simp only [List.replicate_succ, List.flatMap_cons, ih, List.flatten_cons, argText]

/-- What the list branch really sends: one plain argument per element, each the marker's text. -/
theorem commandLine_list (cmd : String) (pre post : List Arg) (items : List String) (n : Int) :
    commandLine quote listMarker cmd (pre ++ .list items n :: post) =
      commandLine quote listMarker cmd
        (pre ++ List.replicate (vecCount items.length n) (.str listMarker) ++ post) := by
  simp only [commandLine, List.flatMap_append, List.flatMap_cons, flatMap_replicate_str, argText,
    List.append_assoc]

/-- A one-element list is not sent as its element: with quoting that loses nothing, the line
differs from the one for the same word passed as a plain argument, whenever the word is not the
marker's own text. -/
theorem commandLine_list_ne_plain (hq : Function.Injective quote) (cmd : String)
    (pre post : List Arg) (x : String) (n : Int) (hn : vecCount 1 n = 1) (hx : x ≠ listMarker) :
    commandLine quote listMarker cmd (pre ++ .list [x] n :: post) ≠
      commandLine quote listMarker cmd (pre ++ .str x :: post) := by
  rw [commandLine_list, List.length_singleton, hn]
  intro h
  simp only [commandLine, List.flatMap_append, List.flatMap_cons, List.replicate_one,
    List.flatMap_nil, argText, List.append_assoc, List.append_cancel_left_eq, List.nil_append,
    List.cons_append, List.cons.injEq, true_and, List.append_cancel_right_eq] at h
  exact hx (hq (String.ext h)).symm

/-! ### The whole request -/

/-- One body line as sent: an extra `.` in front of a line that starts with `.`, the line, a newline. -/
def stuffLine (l : List UInt8) : List UInt8 := (if l.head? = some 46 then [46] else []) ++ l ++ [10]

/-- The body: its first `nbody` lines (all of them when `nbody < 0`), each stuffed, then the line `.`. -/
def bodyBytes (body : List (List UInt8)) (nbody : Int) : List UInt8 :=
  (body.take (vecCount body.length nbody)).flatMap stuffLine ++ [46, 10]

/-- The `disorder__body` argument in effect: the last one given. -/
def bodyArg (args : List Arg) : Option (List (List UInt8) × Int) :=
  args.foldl (fun b a => match a with | .body lines n => some (lines, n) | _ => b) none

/-- The bytes `disorder_simple_v` writes before it reads the response: an error "not connected"
on a closed client, nothing for a NULL command, else the line in UTF-8 and then the body. -/
def simpleV (isOpen : Bool) (cmd : Option String) (args : List Arg) : Except String (List UInt8) :=
  if !isOpen then .error "not connected" else
  match cmd with
  | none => .ok []
  | some cmd => .ok ((commandLine quote listMarker cmd args).flatMap String.utf8EncodeChar ++
      match bodyArg args with
      | some (body, nbody) => bodyBytes body nbody
      | none => [])

end Line

/-- The failing call `disorder_simple(c, 0, "playafter", id, disorder__list, ["x.ogg"], 1, 0)`. -/
theorem playafter_list_sends_marker :
    Function.Injective quoteutf8 ∧ vecCount 1 1 = 1 ∧ "x.ogg" ≠ "" ∧
      commandLine quoteutf8 "" "playafter" [.str "7", .list ["x.ogg"] 1] ≠
        commandLine quoteutf8 "" "playafter" [.str "7", .str "x.ogg"] :=
  ⟨quoteutf8_injective, rfl, by decide,
    commandLine_list_ne_plain quoteutf8 "" quoteutf8_injective "playafter" [.str "7"] [] "x.ogg" 1
      rfl (by decide)⟩

end Disorder.Client

import Disorder.Server.CgiTemplate

/-! `cgi_expand_string` of server/cgi.c: the elements of a template in order, text written as it
is, an expansion run as a built-in (its argument count checked, and its arguments expanded first
unless it is magic) or as a macro (its argument count checked, its text expanded in its place, the
arguments not substituted), any other name fatal. Built-in handlers are parameters. Expanding an
argument or a macro's text is a nested call; `fuel` bounds how deep they go.

Proved: with no macros, expansion always finishes, never going deeper than the template is long,
since each argument is shorter than its template (`expandString_finishes`); a macro whose text
begins with a call of itself never finishes, at any depth (`expandString_self_call`). -/

namespace Disorder.Cgi

open Mime

/-- What expanding comes to: a value, `fatal` with its message, or `deeper` where the nested
calls go deeper than the fuel given. -/
inductive Outcome (α : Type) where
  | ok (a : α)
  | fatal (msg : List UInt8)
  | deeper
  deriving DecidableEq, Repr

instance : Monad Outcome where
  pure := .ok
  bind x f := match x with
    | .ok a => f a
    | .fatal msg => .fatal msg
    | .deeper => .deeper

@[simp] theorem Outcome.ok_bind {α β : Type} (a : α) (f : α → Outcome β) :
    (Outcome.ok a >>= f) = f a := rfl

@[simp] theorem Outcome.pure_eq {α : Type} (a : α) : (pure a : Outcome α) = .ok a := rfl

theorem Outcome.bind_ne_deeper {α β : Type} {x : Outcome α} {f : α → Outcome β} (hx : x ≠ .deeper)
    (hf : ∀ a, f a ≠ .deeper) : x >>= f ≠ .deeper := by
  cases x with
  | ok a => exact hf a
  | fatal msg => nofun
  | deeper => exact absurd rfl hx

/-- `struct cgi_expansion`: a built-in's name, its argument bounds, whether it is magic
(`EXP_MAGIC`: its arguments are passed as written), and its handler, which writes to the output,
quoting or not as the output asks, given the arguments and the user data. -/
structure Builtin (σ : Type) where
  name : List UInt8
  minargs : Nat
  maxargs : Nat
  magic : Bool
  handler : List (List UInt8) → Bool → σ → List UInt8 × σ

/-- `struct cgi_macro`: its argument count and its text; the argument names are never read. -/
structure Macro where
  nargs : Nat
  value : List UInt8
  deriving DecidableEq, Repr

/-- `"<%s:%d arg #%d>"`: the name an argument is expanded under. -/
def argName (name : List UInt8) (line m : Nat) : List UInt8 :=
  ascii "<" ++ name ++ ascii ":" ++ ascii (toString line) ++ ascii " arg #" ++ ascii (toString m) ++
    ascii ">"

/-- The argument-count messages, `%s:%d: <what> to @%s@ (<bound> %d, got %d)`. -/
def arityMessage (name : List UInt8) (line : Nat) (what : String) (n : List UInt8) (bound : String)
    (limit got : Nat) : List UInt8 :=
  located name line ++ ascii what ++ ascii " to @" ++ n ++ ascii "@ (" ++ ascii bound ++ ascii " " ++
    ascii (toString limit) ++ ascii ", got " ++ ascii (toString got) ++ ascii ")"

section Expand

variable {σ : Type} (builtins : List (Builtin σ)) (macros : List UInt8 → Option Macro)

/-- `table_find` over the built-ins (lib/table.c is not among the sources): the entry of the
name. -/
def findBuiltin (name : List UInt8) : Option (Builtin σ) := builtins.find? (·.name == name)

/-- The loop expanding an ordinary expansion's arguments in order, argument `m` as a template of
its own into a string, unquoted. -/
def expandArgs (expand : List UInt8 → List UInt8 → Bool → σ → Outcome (List UInt8 × σ))
    (name : List UInt8) (line : Nat) : Nat → List (List UInt8) → σ → Outcome (List (List UInt8) × σ)
  | _, [], u => .ok ([], u)
  | m, a :: args, u => do
    let (d, u) ← expand (argName name line m) a false u
    let (ds, u) ← expandArgs expand name line (m + 1) args u
    pure (d :: ds, u)

/-- The body of `cgi_expand_string`'s loop, for one element. -/
def expandElement (expand : List UInt8 → List UInt8 → Bool → σ → Outcome (List UInt8 × σ))
    (name : List UInt8) (quote : Bool) : Element → σ → Outcome (List UInt8 × σ)
  | .text _ t, u => .ok (t, u)
  | .expansion line n args, u =>
    match findBuiltin builtins n with
    | some b =>
      if args.length < b.minargs then
        .fatal (arityMessage name line "insufficient arguments" n "min" b.minargs args.length)
      else if args.length > b.maxargs then
        .fatal (arityMessage name line "too many arguments" n "max" b.maxargs args.length)
      else do
        let (args, u) ← if b.magic then pure (args, u) else expandArgs expand name line 0 args u
        pure (b.handler args quote u)
    | none =>
      match macros n with
      | some mac =>
        if args.length ≠ mac.nargs then
          .fatal (arityMessage name line "wrong number of arguments" n "need" mac.nargs args.length)
        else expand n mac.value quote u
      | none => .fatal (located name line ++ ascii "unknown expansion " ++ apostrophe :: n ++ [apostrophe])

/-- The loop of `cgi_expand_string` over the elements, each one's output after the last. -/
def expandElements (expand : List UInt8 → List UInt8 → Bool → σ → Outcome (List UInt8 × σ))
    (name : List UInt8) (quote : Bool) : List Element → σ → Outcome (List UInt8 × σ)
  | [], u => .ok ([], u)
  | e :: es, u => do
    let (out, u) ← expandElement builtins macros expand name quote e u
    let (rest, u) ← expandElements expand name quote es u
    pure (out ++ rest, u)

/-- `cgi_expand_string`, its output quoting or not, with at most `fuel` calls nested. -/
def expandString : Nat → List UInt8 → List UInt8 → Bool → σ → Outcome (List UInt8 × σ)
  | 0, _, _, _, _ => .deeper
  | fuel + 1, name, template, quote, u =>
    match cgiParseString name template with
    | .error msg => .fatal msg
    | .ok es => expandElements builtins macros (expandString fuel) name quote es u

variable {macros}

theorem expandArgs_ne_deeper {expand : List UInt8 → List UInt8 → Bool → σ → Outcome (List UInt8 × σ)}
    {name : List UInt8} {line : Nat} {args : List (List UInt8)}
    (hexp : ∀ a ∈ args, ∀ nm q u, expand nm a q u ≠ .deeper) (m : Nat) (u : σ) :
    expandArgs expand name line m args u ≠ .deeper := by
  induction args generalizing m u with
  | nil => nofun
  | cons a args ih =>
    exact Outcome.bind_ne_deeper (hexp a (List.mem_cons_self _ _) _ _ _) fun _ =>
      Outcome.bind_ne_deeper (ih (fun a h => hexp a (List.mem_cons_of_mem _ h)) _ _) fun _ => nofun

theorem expandElement_ne_deeper (hm : ∀ n, macros n = none)
    {expand : List UInt8 → List UInt8 → Bool → σ → Outcome (List UInt8 × σ)} {e : Element}
    (hexp : ∀ a ∈ e.args, ∀ nm q u, expand nm a q u ≠ .deeper) (name : List UInt8) (quote : Bool)
    (u : σ) : expandElement builtins macros expand name quote e u ≠ .deeper := by
  cases e with
  | text line t => nofun
  | expansion line n args =>
    simp only [expandElement]
    cases findBuiltin builtins n with
    | none => simp [hm]
    | some b =>
      dsimp only
      split_ifs
      · nofun
      · nofun
      · exact Outcome.bind_ne_deeper (by simp) fun _ => nofun
      · exact Outcome.bind_ne_deeper (expandArgs_ne_deeper hexp 0 u) fun _ => nofun

theorem expandElements_ne_deeper (hm : ∀ n, macros n = none)
    {expand : List UInt8 → List UInt8 → Bool → σ → Outcome (List UInt8 × σ)} {es : List Element}
    (hexp : ∀ e ∈ es, ∀ a ∈ e.args, ∀ nm q u, expand nm a q u ≠ .deeper) (name : List UInt8)
    (quote : Bool) (u : σ) : expandElements builtins macros expand name quote es u ≠ .deeper := by
  induction es generalizing u with
  | nil => nofun
  | cons e es ih =>
    exact Outcome.bind_ne_deeper
      (expandElement_ne_deeper builtins hm (hexp e (List.mem_cons_self _ _)) _ _ _) fun _ =>
      Outcome.bind_ne_deeper (ih (fun e h => hexp e (List.mem_cons_of_mem _ h)) _) fun _ => nofun

theorem expandString_finishes (hm : ∀ n, macros n = none) {fuel : Nat} {template : List UInt8}
    (hf : template.length < fuel) (name : List UInt8) (quote : Bool) (u : σ) :
    expandString builtins macros fuel name template quote u ≠ .deeper := by
  induction fuel generalizing template name quote u with
  | zero => exact absurd hf (Nat.not_lt_zero _)
  | succ fuel ih =>
    rw [expandString]
    split
    · nofun
    · rename_i es hes
      exact expandElements_ne_deeper builtins hm (fun e he a ha nm q u =>
        ih (by have := cgiParseString_args hes e he a ha; omega) nm q u) name quote u

theorem expandString_finishes_echo :
    expandString [⟨ascii "echo", 1, 1, false, fun args _ u => (args.flatten, u)⟩] (fun _ => none) 20
      (ascii "page") (ascii "a@echo\x7b@echo:b@\x7d@c") false () ≠ .deeper :=
  expandString_finishes _ (fun _ => rfl) (by decide) _ _ _

theorem expandString_self_call {n : List UInt8} {mac : Macro} (hb : findBuiltin builtins n = none)
    (hm : macros n = some mac) {line : Nat} {args : List (List UInt8)} {es : List Element}
    (hv : cgiParseString n mac.value = .ok (.expansion line n args :: es))
    (hargs : args.length = mac.nargs) (fuel : Nat) (quote : Bool) (u : σ) :
    expandString builtins macros fuel n mac.value quote u = .deeper := by
  induction fuel generalizing u with
  | zero => rfl
  | succ fuel ih =>
    rw [expandString, hv]
    simp only [expandElements, expandElement, hb, hm, hargs, ne_eq, not_true_eq_false, if_false, ih]
    rfl

theorem expandString_self_call_loop :
    expandString ([] : List (Builtin Unit))
        (fun n => if n = ascii "loop" then some ⟨0, ascii "@loop@"⟩ else none) 1000 (ascii "loop")
        (ascii "@loop@") false () = .deeper :=
  @expandString_self_call Unit [] (fun n => if n = ascii "loop" then some ⟨0, ascii "@loop@"⟩ else none)
    (ascii "loop") ⟨0, ascii "@loop@"⟩ rfl (by decide) 1 [] [] (by
    rw [cgiParseString, show (ascii "@loop@").takeWhile (· != 0) =
      [Piece.expansion (ascii "loop") []].flatMap Piece.render ++ [] by decide,
      elements_render (by decide) (.inl rfl)]
    rfl) rfl 1000 false ()

end Expand

end Disorder.Cgi

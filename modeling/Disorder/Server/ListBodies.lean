import Disorder.Server.Session
import Mathlib.Data.String.Basic

/-! List bodies, from the server's writes to what the client's `readlist` makes of them. After a
`253` line the server sends one line per element and a line `.`; the client reads lines up to the
`.` line and takes one leading `.` off every other line. `list_response` and `c_new` put an extra
`.` in front of an element that starts with one, so the client gets back exactly the list.
`output_list` (used by `files`, `dirs`, `allfiles`, `search` and `schedule-list`) sends elements as
they are: the client loses the leading `.` of an element, and an element `.` ends the list there,
leaving the rest of the body to be read as the replies of later commands. -/

namespace Disorder.Server

/-! ### The client's side -/

/-- Modelled from the spec (lib/inputline.c is missing): the complete lines of the input, in order
and without their newlines, as successive calls of `inputlines` with newline `\n` return them;
what follows the last newline is no line. -/
def lines : List Char → List (List Char)
  | [] => []
  | c :: s =>
    if c = '\n' then [] :: lines s else
    match lines s with
    | [] => []
    | l :: ls => (c :: l) :: ls

/-- The C string a line is: its characters up to the first NUL. -/
def cstr (l : List Char) : List Char := l.takeWhile (· ≠ '\x00')

/-- `l + (*l == '.')`: a line without one leading `.`. -/
def undot (l : List Char) : List Char := if l.head? = some '.' then l.tail else l

/-- `readlist`: lines up to one that is `.`, each without one leading `.`; the input ending first
is an error. The list, and the lines after the `.` line. -/
def readlist : List (List Char) → Except String (List String × List (List Char))
  | [] => .error "input error: unexpxected EOF"
  | l :: ls =>
    if cstr l = ['.'] then .ok ([], ls) else
    (readlist ls).map fun (v, rest) => (String.mk (undot (cstr l)) :: v, rest)

theorem lines_append_line {l : List Char} (hl : '\n' ∉ l) (rest : List Char) :
    lines (l ++ '\n' :: rest) = l :: lines rest := by
  induction l with
  | nil => simp [lines]
  | cons c l ih =>
    have hc : c ≠ '\n' := fun h => hl (h ▸ List.mem_cons_self _ _)
    rw [List.cons_append, lines, if_neg hc, ih fun h => hl (List.mem_cons_of_mem _ h)]

/-- Lines sent one after the other are read back as they were sent. -/
theorem lines_flatten {ls : List (List Char)} (hls : ∀ l ∈ ls, '\n' ∉ l) (rest : List Char) :
    lines ((ls.map (· ++ ['\n'])).flatten ++ rest) = ls ++ lines rest := by
  induction ls with
  | nil => rfl
  | cons l ls ih =>
    rw [List.map_cons, List.flatten_cons, List.append_assoc, List.append_assoc, List.singleton_append,
      lines_append_line (hls l (List.mem_cons_self _ _)), ih fun l hl => hls l (List.mem_cons_of_mem _ hl),
      List.cons_append]

theorem cstr_of_nul {l : List Char} (hl : '\x00' ∉ l) : cstr l = l :=
  List.takeWhile_eq_self_iff.2 fun c hc => decide_eq_true fun h : c = '\x00' => hl (h ▸ hc)

theorem readlist_dot (more : List (List Char)) : readlist (['.'] :: more) = .ok ([], more) := by
  simp [readlist, cstr]

/-- A line other than `.` is taken into the list without its leading `.`. -/
theorem readlist_cons {l : List Char} (hl : '\x00' ∉ l) (hd : l ≠ ['.']) (ls : List (List Char)) :
    readlist (l :: ls) = (readlist ls).map fun (v, rest) => (String.mk (undot l) :: v, rest) := by
  rw [readlist, cstr_of_nul hl, if_neg hd]

/-! ### Dot-stuffed bodies -/

/-- The characters `list_response` and `c_new` send for an element, before its newline. -/
def stuffedChars (s : String) : List Char := if s.toList.head? = some '.' then '.' :: s.toList else s.toList

theorem stuffed_toList (s : String) : (stuffed s).toList = stuffedChars s ++ ['\n'] := by
  unfold stuffed stuffedChars
  split_ifs <;> simp [String.toList]

section Stuffed

variable {x : String}

theorem stuffedChars_nonl (h : '\n' ∉ x.toList) : '\n' ∉ stuffedChars x := by
  unfold stuffedChars; split_ifs
  exacts [List.not_mem_cons_of_ne_of_not_mem (by decide) h, h]

theorem stuffedChars_nonul (h : '\x00' ∉ x.toList) : '\x00' ∉ stuffedChars x := by
  unfold stuffedChars; split_ifs
  exacts [List.not_mem_cons_of_ne_of_not_mem (by decide) h, h]

/-- A stuffed element is never the line `.`. -/
theorem stuffedChars_ne_dot : stuffedChars x ≠ ['.'] := by
  unfold stuffedChars; split_ifs with h <;> intro h'
  · rw [List.cons.injEq] at h'; rw [h'.2] at h; cases h
  · rw [h'] at h; exact h rfl

/-- The client's `undot` takes back what the server's stuffing added. -/
theorem undot_stuffedChars : String.mk (undot (stuffedChars x)) = x := by
  unfold stuffedChars undot
  split_ifs with h h'
  · rfl
  · exact absurd rfl h'
  · rfl

end Stuffed

/-- A dot-stuffed body is read back as the list it was made from, whatever follows it. -/
theorem readlist_stuffed {xs : List String} (hxs : ∀ x ∈ xs, '\n' ∉ x.toList ∧ '\x00' ∉ x.toList)
    (rest : List Char) :
    readlist (lines ((String.join (xs.map stuffed ++ [".\n"])).toList ++ rest)) = .ok (xs, lines rest) := by
  have hbody : (String.join (xs.map stuffed ++ [".\n"])).toList ++ rest =
      ((xs.map stuffedChars ++ [['.']]).map (· ++ ['\n'])).flatten ++ rest := by
    have h : xs.map (String.data ∘ stuffed) = xs.map ((· ++ ['\n']) ∘ stuffedChars) :=
      List.map_congr_left fun x _ => stuffed_toList x
    simp only [String.toList, String.data_join, List.map_append, List.map_map, h]; rfl
  have hnl : ∀ l ∈ xs.map stuffedChars ++ [['.']], '\n' ∉ l := by
    simp only [List.mem_append, List.mem_map, List.mem_singleton]
    rintro l (⟨x, hx, rfl⟩ | rfl)
    exacts [stuffedChars_nonl (hxs x hx).1, by decide]
  rw [hbody, lines_flatten hnl, List.append_assoc, List.singleton_append]
  clear hbody hnl
  induction xs with
  | nil => exact readlist_dot _
  | cons x xs ih =>
    rw [List.map_cons, List.cons_append, readlist_cons (stuffedChars_nonul (hxs x (List.mem_cons_self _ _)).2)
      stuffedChars_ne_dot, ih fun y hy => hxs y (List.mem_cons_of_mem _ hy)]
    simp [Except.map, undot_stuffedChars]

/-! ### Bodies sent as they are -/

/-- A body sent as it is: the client takes the elements before the first `.` element, each without
its leading `.`, and stops there. -/
theorem readlist_raw {xs : List String} (hxs : ∀ x ∈ xs, '\x00' ∉ x.toList) (more : List (List Char)) :
    readlist ((xs ++ ["."]).map String.toList ++ more) =
      .ok (((xs ++ ["."]).takeWhile (· ≠ ".")).map (fun x => String.mk (undot x.toList)),
        ((xs ++ ["."]).dropWhile (· ≠ ".")).tail.map String.toList ++ more) := by
  induction xs with
  | nil => exact readlist_dot more
  | cons x xs ih =>
    have h0 := hxs x (List.mem_cons_self _ _)
    by_cases hx : x = "."
    · subst hx; simp [readlist_dot]
    · have hd : x.toList ≠ ['.'] := fun h => hx (String.ext h)
      rw [List.cons_append, List.map_cons, List.cons_append, readlist_cons h0 hd,
        ih fun y hy => hxs y (List.mem_cons_of_mem _ hy)]
      simp [Except.map, hx]

/-! ### The server's side -/

section Transcripts

variable {σ : Type} {w w' : World σ} {t : Nat}

theorem write_out {s : String} (h : w.write t s = .ok w') : (w'.conn t).out = (w.conn t).out ++ [s] := by
  have hw : (w.conn t).w := by
    by_contra hw; rw [World.write_null (by simpa using hw)] at h; cases h
  have ht : t < w.conns.length := by
    by_contra ht; rw [World.conn, List.getD_eq_default _ _ (by omega)] at hw; cases hw
  obtain ⟨wr, -, rfl⟩ := World.write_frame h
  rw [World.conn_setConn_self ht]

theorem writeAll_out {ss : List String} (h : w.writeAll t ss = .ok w') :
    (w'.conn t).out = (w.conn t).out ++ ss := by
  induction ss generalizing w with
  | nil => cases h; simp
  | cons s ss ih =>
    simp only [World.writeAll, bind, Except.bind] at h
    split at h
    · cases h
    · rename_i w₁ h₁; rw [ih h, write_out h₁, List.append_assoc, List.singleton_append]

theorem reply_out {s : String} {n : Int} (h : w.reply t s = .ok (n, w')) : (w'.conn t).out = (w.conn t).out ++ [s] := by
  cases hw : w.write t s with
  | error e => simp [World.reply, hw, Except.map] at h
  | ok w₁ =>
    simp only [World.reply, hw, Except.map, Except.ok.injEq, Prod.mk.injEq] at h
    exact h.2 ▸ write_out hw

/-- What `output_list` sends: each element and a newline, then `.`. -/
theorem outputList_out {xs : List String} {n : Int} (h : outputList t w xs = .ok (n, w')) :
    (w'.conn t).out = (w.conn t).out ++ (xs.map (· ++ "\n") ++ [".\n"]) := by
  simp only [outputList, bind, Except.bind] at h
  split at h
  · cases h
  · rename_i w₁ h₁; rw [reply_out h, writeAll_out h₁, List.append_assoc]

/-- What `list_response` sends: the `253` line, each element dot-stuffed, then `.`. -/
theorem listResponse_out {r : String} {xs : List String} {n : Int} (h : w.listResponse t r xs = .ok (n, w')) :
    (w'.conn t).out = (w.conn t).out ++ ("253 " ++ r ++ "\n") :: (xs.map stuffed ++ [".\n"]) := by
  simp only [World.listResponse, bind, Except.bind, pure, Except.pure] at h
  split at h
  · cases h
  rename_i w₁ h₁
  split at h
  · cases h
  rename_i w₂ h₂
  split at h
  · cases h
  rename_i w₃ h₃
  cases h
  rw [write_out h₃, writeAll_out h₂, write_out h₁]
  simp

end Transcripts

/-! ### Round trips -/

variable {σ : Type} {w w' : World σ} {t : Nat} {xs : List String} {n : Int}

/-- A body that `output_list` sends is read back by `readlist` as the elements before the first
`.` element, each without its leading `.`; the lines after that element are left unread. -/
theorem outputList_readlist (hxs : ∀ x ∈ xs, '\n' ∉ x.toList ∧ '\x00' ∉ x.toList)
    (h : outputList t w xs = .ok (n, w')) (rest : List Char) :
    ∃ body, (w'.conn t).out = (w.conn t).out ++ body ∧
      readlist (lines ((String.join body).toList ++ rest)) =
        .ok (((xs ++ ["."]).takeWhile (· ≠ ".")).map (fun x => String.mk (undot x.toList)),
          ((xs ++ ["."]).dropWhile (· ≠ ".")).tail.map String.toList ++ lines rest) := by
  refine ⟨_, outputList_out h, ?_⟩
  have hbody : (String.join (xs.map (· ++ "\n") ++ [".\n"])).toList ++ rest =
      (((xs ++ ["."]).map String.toList).map (· ++ ['\n'])).flatten ++ rest := by
    simp [String.toList, List.map_map, Function.comp_def]
  have hnl : ∀ l ∈ (xs ++ ["."]).map String.toList, '\n' ∉ l := by
    simp only [List.mem_map, List.mem_append, List.mem_singleton]
    rintro l ⟨x, hx | rfl, rfl⟩
    exacts [(hxs x hx).1, by decide]
  rw [hbody, lines_flatten hnl, readlist_raw fun x hx => (hxs x hx).2]

/-- An idle connection on the local socket, logged in as `alice`. -/
def listeningAlice : World Unit :=
  { World.start () Config.plain none 0 false with
    conns := [{ newConn ⟨"socket", .unix, false⟩ (some "local") [] with who := some "alice" }],
    connections := [0] }

/-- `files` of a directory holding `.profile` and `x`: the client reads `profile` and `x`. -/
theorem outputList_readlist_dotfile :
    ∃ n w', outputList 0 listeningAlice [".profile", "x"] = .ok (n, w') ∧
      ((([".profile", "x"] ++ ["."]).takeWhile (· ≠ ".")).map (fun x => String.mk (undot x.toList)) = ["profile", "x"] ∧
      ∃ body, (w'.conn 0).out = (listeningAlice.conn 0).out ++ body ∧
        readlist (lines ((String.join body).toList ++ [])) =
          .ok ((([".profile", "x"] ++ ["."]).takeWhile (· ≠ ".")).map (fun x => String.mk (undot x.toList)),
            (([".profile", "x"] ++ ["."]).dropWhile (· ≠ ".")).tail.map String.toList ++ lines [])) :=
  Exists.imp (fun _ => Exists.imp fun _ (h : _ = _) =>
    ⟨h, by decide, outputList_readlist (by decide) h []⟩) ⟨_, _, rfl⟩

/-- The bodies of `list_response` (and so of `tags`, `users`, `playlists` and `playlist-get`) are
read back by `readlist` as exactly the list sent, whatever follows them. -/
theorem listResponse_readlist (hxs : ∀ x ∈ xs, '\n' ∉ x.toList ∧ '\x00' ∉ x.toList) {r : String}
    (h : w.listResponse t r xs = .ok (n, w')) (rest : List Char) :
    ∃ body, (w'.conn t).out = (w.conn t).out ++ ("253 " ++ r ++ "\n") :: body ∧
      readlist (lines ((String.join body).toList ++ rest)) = .ok (xs, lines rest) :=
  ⟨_, listResponse_out h, readlist_stuffed hxs rest⟩

/-- `tags` with the tags `.hidden` and `jazz`. -/
theorem listResponse_readlist_tags :
    ∃ n w', listeningAlice.listResponse 0 "Tag list follows" [".hidden", "jazz"] = .ok (n, w') ∧
      ∃ body, (w'.conn 0).out = (listeningAlice.conn 0).out ++ ("253 " ++ "Tag list follows" ++ "\n") :: body ∧
        readlist (lines ((String.join body).toList ++ [])) = .ok ([".hidden", "jazz"], lines []) :=
  Exists.imp (fun _ => Exists.imp fun _ (h : _ = _) =>
    ⟨h, listResponse_readlist (by decide) h []⟩) ⟨_, _, rfl⟩

end Disorder.Server

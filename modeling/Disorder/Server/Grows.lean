import Disorder.Server.State
import Mathlib.Data.List.GetD

/-! What no step of the server undoes. A connection's tag is its index in `conns`, and connection
objects are only ever added; `connections` loses tags (`remove_connection`) and gains only the tag
of a connection object made since; and whatever has been written to a connection stays written, so
its transcript only grows. `Grows w w'` says this of two worlds. It is a preorder, and the
operations the handlers are built from (a write, a reply, a change of the database, a change of
one connection object that keeps its transcript) each give a world that grew. `HandlerGrows` and
`ResultGrows` say it of every world a computation can return, and are closed under `bind`, so a
handler written with `do` is proved to grow by following its code. -/

namespace Disorder.Server

namespace World

variable {σ : Type}

/-- `connections` is a list of connection objects, as the linked list of server.c is: its tags are
distinct and each names a connection object. -/
def ConnectionsWf (w : World σ) : Prop :=
  w.connections.Nodup ∧ ∀ d ∈ w.connections, d < w.conns.length

/-- `w'` is `w` after steps that add connection objects, drop tags from `connections` or list a
new connection's, and append to transcripts; a well-formed connection list stays well formed. -/
structure Grows (w w' : World σ) : Prop where
  length_le : w.conns.length ≤ w'.conns.length
  tags : ∀ d ∈ w'.connections, d ∈ w.connections ∨ (w.conns.length ≤ d ∧ d < w'.conns.length)
  transcripts : ∀ d, (w.conn d).out <+: (w'.conn d).out
  wf : w.ConnectionsWf → w'.ConnectionsWf

variable {w w' w₁ w₂ : World σ} {t : Nat}

namespace Grows

theorem refl (w : World σ) : Grows w w := ⟨le_rfl, fun _ h => .inl h, fun _ => List.prefix_refl _, id⟩

theorem trans (h₁ : Grows w w₁) (h₂ : Grows w₁ w₂) : Grows w w₂ where
  length_le := h₁.length_le.trans h₂.length_le
  tags d hd := by
    rcases h₂.tags d hd with h | h
    · rcases h₁.tags d h with h' | h'
      exacts [.inl h', .inr ⟨h'.1, h'.2.trans_le h₂.length_le⟩]
    · exact .inr ⟨h₁.length_le.trans h.1, h.2⟩
  transcripts d := (h₁.transcripts d).trans (h₂.transcripts d)
  wf h := h₂.wf (h₁.wf h)

/-- A change that leaves the connection objects and the connection list alone. -/
theorem of_conns (hc : w'.conns = w.conns) (hl : w'.connections = w.connections) : Grows w w' :=
  ⟨(congrArg List.length hc).ge, fun d h => .inl (hl ▸ h), fun d => by
    simp only [conn_congr hc, List.prefix_refl], fun h => by rwa [ConnectionsWf, hc, hl]⟩

/-- Replacing one connection object by one whose transcript extends it, whatever else changes
but the connection list. -/
theorem of_setConn {c : Conn} (hc : w'.conns = (w.setConn t c).conns) (hl : w'.connections = w.connections)
    (h : (w.conn t).out <+: c.out) : Grows w w' := by
  refine ⟨by simp [hc], fun d hd => .inl (hl ▸ hd), fun d => ?_, fun h => ?_⟩
  swap
  · rwa [ConnectionsWf, hc, hl, setConn, List.length_set]
  rw [conn_congr hc]
  by_cases hd : d = t
  · subst hd
    by_cases ht : d < w.conns.length
    · rwa [conn_setConn_self ht]
    · simp only [setConn_of_le (Nat.le_of_not_lt ht), List.prefix_refl]
  · simp only [conn_setConn_ne hd, List.prefix_refl]

theorem setConn {c : Conn} (h : (w.conn t).out <+: c.out) : Grows w (w.setConn t c) :=
  of_setConn rfl rfl h

theorem modifyConn {f : Conn → Conn} (hf : ∀ c, c.out <+: (f c).out) : Grows w (w.modifyConn t f) :=
  setConn (hf _)

/-- `remove_connection`'s unlinking: the tag leaves `connections`, nothing else changes. -/
theorem eraseConnection : Grows w { w with connections := w.connections.erase t } :=
  ⟨le_rfl, fun _ hd => .inl (List.mem_of_mem_erase hd), fun _ => List.prefix_refl _,
    fun h => ⟨h.1.erase t, fun d hd => h.2 d (List.mem_of_mem_erase hd)⟩⟩

/-- A new connection object, listed under its index, the next one. -/
theorem of_append {c : Conn} (hc : w'.conns = w.conns ++ [c])
    (hl : w'.connections = w.conns.length :: w.connections) : Grows w w' := by
  refine ⟨by simp [hc], fun d hd => ?_, fun d => ?_, fun h => ?_⟩
  · rw [hl, List.mem_cons] at hd
    rcases hd with rfl | hd
    exacts [.inr ⟨le_rfl, by simp [hc]⟩, .inl hd]
  · rcases lt_or_le d w.conns.length with hd | hd
    · simp only [conn, hc, List.getD_append _ _ _ _ hd, List.prefix_refl]
    · rw [conn, List.getD_eq_default _ _ hd]; exact List.nil_prefix
  · have hlen : w'.conns.length = w.conns.length + 1 := by simp [hc]
    refine ⟨?_, fun d hd => ?_⟩
    · rw [hl]
      exact List.nodup_cons.2 ⟨fun hm => lt_irrefl _ (h.2 _ hm), h.1⟩
    · rw [hl, List.mem_cons] at hd
      rcases hd with rfl | hd
      exacts [by omega, by have := h.2 d hd; omega]

/-- A change to one connection object, made or not, that keeps its transcript. -/
theorem ite_modifyConn {p : Prop} [Decidable p] {f : Conn → Conn} (hf : ∀ c, c.out <+: (f c).out) :
    Grows w (if p then w.modifyConn t f else w) := by
  split_ifs
  exacts [modifyConn hf, refl w]

theorem write {s : String} (h : w.write t s = .ok w') : Grows w w' := by
  obtain ⟨wr, -, rfl⟩ := write_frame h
  exact setConn (List.prefix_append _ _)

theorem reply {s : String} {n : Int} (h : w.reply t s = .ok (n, w')) : Grows w w' := by
  obtain ⟨-, wr, -, rfl⟩ := reply_frame h
  exact setConn (List.prefix_append _ _)

end Grows

/-- Every world a handler's result carries grew from `w`. -/
def HandlerGrows (w : World σ) (m : Except Halt (Int × World σ)) : Prop :=
  ∀ n w', m = .ok (n, w') → Grows w w'

/-- Every world the result carries grew from `w`. -/
def ResultGrows (w : World σ) (m : Except Halt (World σ)) : Prop :=
  ∀ w', m = .ok w' → Grows w w'

namespace ResultGrows

theorem ok (h : Grows w w') : ResultGrows w (.ok w') := by
  rintro _ ⟨⟩; exact h

theorem error {e : Halt} : ResultGrows w (.error e) := by
  rintro _ ⟨⟩

theorem bind {m : Except Halt (World σ)} {f : World σ → Except Halt (World σ)} (hm : ResultGrows w m)
    (hf : ∀ w₁, Grows w w₁ → ResultGrows w (f w₁)) : ResultGrows w (m >>= f) := by
  intro w' h
  cases hm' : m with
  | error e => rw [hm'] at h; cases h
  | ok w₁ => rw [hm'] at h; exact hf w₁ (hm w₁ hm') w' h

theorem ite {c : Prop} [Decidable c] {a b : Except Halt (World σ)} (ha : ResultGrows w a)
    (hb : ResultGrows w b) : ResultGrows w (if c then a else b) := by
  split <;> assumption

theorem write {s : String} (h : Grows w w₁) : ResultGrows w (w₁.write t s) :=
  fun _ h' => h.trans (.write h')

theorem writeAll (h : Grows w w₁) (ss : List String) : ResultGrows w (w₁.writeAll t ss) := by
  induction ss generalizing w₁ with
  | nil => exact ok h
  | cons s ss ih => exact bind (write h) fun w₂ h₂ => ih h₂

/-- A result taken from a world that `w` grew into. -/
theorem pre {m : Except Halt (World σ)} (hm : ResultGrows w₁ m) (h : Grows w w₁) : ResultGrows w m :=
  fun w' h' => h.trans (hm w' h')

theorem map {m : Except Halt (World σ)} {f : World σ → World σ} (hm : ResultGrows w m)
    (hf : ∀ w₁, Grows w₁ (f w₁)) : ResultGrows w (m.map f) := by
  intro w' h
  cases hm' : m with
  | error e => rw [hm'] at h; cases h
  | ok w₁ => rw [hm'] at h; cases h; exact (hm w₁ hm').trans (hf w₁)

/-- A loop over a list whose every round grows the world. -/
theorem foldlM {α : Type} {f : World σ → α → Except Halt (World σ)}
    (hf : ∀ w₁ a, Grows w w₁ → ResultGrows w (f w₁ a)) (h : Grows w w₁) (l : List α) :
    ResultGrows w (l.foldlM f w₁) := by
  induction l generalizing w₁ with
  | nil => exact ok h
  | cons a l ih => exact bind (hf w₁ a h) fun w₂ h₂ => ih h₂

end ResultGrows

namespace HandlerGrows

theorem ok {n : Int} (h : Grows w w') : HandlerGrows w (.ok (n, w')) := by
  rintro _ _ ⟨⟩; exact h

theorem error {e : Halt} : HandlerGrows w (.error e) := by
  rintro _ _ ⟨⟩

theorem bind {m : Except Halt (World σ)} {f : World σ → Except Halt (Int × World σ)}
    (hm : ResultGrows w m) (hf : ∀ w₁, Grows w w₁ → HandlerGrows w (f w₁)) :
    HandlerGrows w (m >>= f) := by
  intro n w' h
  cases hm' : m with
  | error e => rw [hm'] at h; cases h
  | ok w₁ => rw [hm'] at h; exact hf w₁ (hm w₁ hm') n w' h

theorem ite {c : Prop} [Decidable c] {a b : Except Halt (Int × World σ)} (ha : HandlerGrows w a)
    (hb : HandlerGrows w b) : HandlerGrows w (if c then a else b) := by
  split <;> assumption

/-- A handler run on a world that `w` grew into. -/
theorem pre {m : Except Halt (Int × World σ)} (hm : HandlerGrows w₁ m) (h : Grows w w₁) :
    HandlerGrows w m :=
  fun n w' h' => h.trans (hm n w' h')

theorem reply {s : String} (h : Grows w w₁) : HandlerGrows w (w₁.reply t s) :=
  fun _ _ h' => h.trans (.reply h')

theorem listResponse (h : Grows w w₁) (r : String) (l : List String) :
    HandlerGrows w (w₁.listResponse t r l) :=
  bind (.write h) fun _ h₂ => bind (.writeAll h₂ _) fun _ h₃ => bind (.write h₃) fun _ h₄ => ok h₄

end HandlerGrows

end World

end Disorder.Server

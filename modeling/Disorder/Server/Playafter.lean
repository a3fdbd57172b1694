import Disorder.Server.Session

/-! `c_playafter` and the queue. The command adds its tracks one after another, each after the
entry added before it, and only when every track has been added does it journal the queue
(`queue_write`) and reply `252`. A track that is not in the database or cannot be resolved, or a
target the queue does not have, stops the loop with a `550` reply; the entries added before it stay
on the in-memory queue, and the journal is not written. -/

namespace Disorder.Server

variable {σ : Type} (B : Backend σ)

/-- `xs` checked, resolved and added one after another from `afterme`, taking the collaborators'
state from `db` to `db'`; `last` is the ID of the entry added last (`afterme` if none was). -/
inductive Adds (who : Option String) : String → List String → σ → σ → String → Prop
  | nil (afterme : String) (db : σ) : Adds who afterme [] db db afterme
  | cons {afterme x : String} {xs : List String} {db db₁ db' : σ} {last track : String} {q : QueueEntry} :
      B.trackdbExists db x → B.trackdbResolve db x = some track →
      B.queueAdd db track who .after (some afterme) .picked = (some q, db₁) →
      Adds who q.id xs db₁ db' last → Adds who afterme (x :: xs) db db' last

variable {B} {who : Option String}

/-- The loop goes through tracks that are added as if they were not there. -/
theorem playafterLoop_adds {afterme last : String} {xs : List String} {db db' : σ}
    (h : Adds B who afterme xs db db' last) (ys : List String) :
    playafterLoop B who afterme (xs ++ ys) db = playafterLoop B who last ys db' := by
  induction h with
  | nil => rfl
  | cons hx hr hq _ ih => simp [playafterLoop, hx, hr, hq, ih]

variable {t : Nat} {w : World σ} {afterme last : String} {xs : List String} {db' : σ}

/-- A track that fails after others were added: the reply is `550`, the collaborators keep the
entries added before it, and the queue is not journalled. -/
theorem playafter_keeps_partial (hadds : Adds B (w.conn t).who afterme xs w.db db' last) (x : String)
    (ys : List String) :
    (B.trackdbExists db' x = false →
      cPlayafter B t (afterme :: (xs ++ x :: ys)) w = { w with db := db' }.reply t "550 track is not in database\n") ∧
    (B.trackdbExists db' x = true → B.trackdbResolve db' x = none →
      cPlayafter B t (afterme :: (xs ++ x :: ys)) w = { w with db := db' }.reply t "550 cannot resolve track\n") := by
  have h := playafterLoop_adds hadds (x :: ys)
  constructor
  · intro hx
    simp only [cPlayafter, arg, List.getD_cons_zero, List.drop_succ_cons, List.drop_zero, h, playafterLoop, hx,
      Bool.not_false, if_true]
  · intro hx hr
    simp only [cPlayafter, arg, List.getD_cons_zero, List.drop_succ_cons, List.drop_zero, h, playafterLoop, hx, hr,
      Bool.not_true, Bool.false_eq_true, if_false]

/-! ### A queue to run -/

/-- A queue for runs. Modelled from the spec (the queue code is not in this source): `queue_add`
after an ID puts the new entry, numbered by the queue's length, right after the entry with that
ID, and is NULL when there is none; other additions go at the end. -/
def queueAfter (db : List QueueEntry) (track : String) (who : Option String) (wh : Where)
    (target : Option String) (origin : Origin) : Option QueueEntry × List QueueEntry :=
  let q : QueueEntry := ⟨toString db.length, track, who, origin, 0, 0, 0⟩
  match wh, target with
  | .after, some afterme =>
    match db.findIdx? (·.id = afterme) with
    | none => (none, db)
    | some i => (some q, db.take (i + 1) ++ q :: db.drop (i + 1))
  | _, _ => (some q, db ++ [q])

/-- The plain collaborators over that queue, with every track but `gone` in the database. -/
def Backend.queued : Backend (List QueueEntry) :=
  { Backend.over (List QueueEntry) with
    trackdbExists := fun _ x => x ≠ "gone"
    trackdbResolve := fun _ x => some x
    queueAdd := queueAfter
    queueEntries := id }

/-- On a queue holding entry `0`, `playafter 0 a gone`: `a` is added, `gone` fails, and the reply
is `550` with `a` still queued. -/
theorem playafter_keeps_partial_gone :
    let e₀ : QueueEntry := ⟨"0", "t", none, .picked, 0, 0, 0⟩
    let w : World (List QueueEntry) := { World.start [e₀] Config.plain none 0 false with
      conns := [{ newConn ⟨"socket", .unix, false⟩ (some "local") [] with who := some "alice" }],
      connections := [0] }
    Adds Backend.queued (w.conn 0).who "0" ["a"] w.db [e₀, ⟨"1", "a", some "alice", .picked, 0, 0, 0⟩] "1" ∧
    [e₀, ⟨"1", "a", some "alice", .picked, 0, 0, 0⟩] ≠ w.db ∧
    ((Backend.queued.trackdbExists [e₀, ⟨"1", "a", some "alice", .picked, 0, 0, 0⟩] "gone" = false →
      cPlayafter Backend.queued 0 ("0" :: (["a"] ++ "gone" :: [])) w =
        { w with db := [e₀, ⟨"1", "a", some "alice", .picked, 0, 0, 0⟩] }.reply 0 "550 track is not in database\n") ∧
    (Backend.queued.trackdbExists [e₀, ⟨"1", "a", some "alice", .picked, 0, 0, 0⟩] "gone" = true →
      Backend.queued.trackdbResolve [e₀, ⟨"1", "a", some "alice", .picked, 0, 0, 0⟩] "gone" = none →
      cPlayafter Backend.queued 0 ("0" :: (["a"] ++ "gone" :: [])) w =
        { w with db := [e₀, ⟨"1", "a", some "alice", .picked, 0, 0, 0⟩] }.reply 0 "550 cannot resolve track\n")) :=
  have hadds : Adds Backend.queued (some "alice") "0" ["a"] [⟨"0", "t", none, .picked, 0, 0, 0⟩]
      [⟨"0", "t", none, .picked, 0, 0, 0⟩, ⟨"1", "a", some "alice", .picked, 0, 0, 0⟩] "1" :=
    .cons (by decide) rfl rfl (.nil _ _)
  ⟨hadds, by decide, playafter_keeps_partial hadds "gone" []⟩

end Disorder.Server

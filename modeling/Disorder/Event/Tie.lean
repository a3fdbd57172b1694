import Disorder.Event.Reader
import Disorder.Event.WriterRun

/-! A reader and a writer tied with `ev_tie` on one descriptor (lib/event.c). Each half is shut
down by `reader_shutdown` or `writer_shutdown`, whichever way it gets there: the reader at end of
file (through its zero-delay timeout), on a read error or after `ev_reader_cancel`; the writer when
a closed writer's buffer drains, on a write error, when its time bound expires, or after its space
bound abandons it; and every later shutdown finds the descriptor `-1` and does nothing. The first
half to shut down cancels its own registration, shuts the socket in its direction and unties the
other; the second, finding itself untied, cancels its registration and closes the descriptor.

Over every interleaving of what can happen to the two halves, the calls on the descriptor are one
of six sequences (`Shut`), so the descriptor is closed once, last, after both registrations are
cancelled, and exactly when both halves have shut down. Events the reactor would not deliver (a read
on a cancelled descriptor) are allowed too. What a callback does to the other half is the next
operation of that half. -/

namespace Disorder.Event

/-- What the user's read callback does to its reader: `ev_reader_consume`, `ev_reader_disable`,
`ev_reader_enable`, `ev_reader_incomplete` and `ev_reader_cancel`. -/
inductive ReaderCall where
  | consume (n : Nat)
  | disable
  | enable
  | incomplete
  | cancel
  deriving DecidableEq, Repr

/-- A call on the descriptor the halves share: `ev_fd_cancel` for reading or writing, `shutdown`
with `SHUT_RD` or `SHUT_WR`, and `close`. -/
inductive FdCall where
  | cancelRead
  | cancelWrite
  | shutRead
  | shutWrite
  | close
  deriving DecidableEq, Repr

/-- What can happen to the tied pair: the reactor's read with what `read` returned,
`ev_reader_cancel`, the reader's `i`-th pending timeout, and anything that can happen to the
writer. -/
inductive TieOp where
  | read (res : ReadResult)
  | readerCancel
  | readerTimeout (i : Nat)
  | writer (op : WriterOp)
  deriving DecidableEq, Repr

namespace Reader

/-- One call of the read callback on its reader. -/
def call (r : Reader) : ReaderCall → Reader
  | .consume n => r.consume n
  | .disable => r.disable
  | .enable => r.enable
  | .incomplete => r.incomplete
  | .cancel => r.cancel

@[simp] theorem cancel_fd (r : Reader) : r.cancel.fd = r.fd := by
  unfold cancel; split_ifs <;> rfl

@[simp] theorem cancel_tied (r : Reader) : r.cancel.tied = r.tied := by
  unfold cancel; split_ifs <;> rfl

/-- The read callback leaves the descriptor and the tie alone. -/
theorem foldl_call (cs : List ReaderCall) (r : Reader) :
    (cs.foldl call r).fd = r.fd ∧ (cs.foldl call r).tied = r.tied := by
  induction cs generalizing r with
  | nil => exact ⟨rfl, rfl⟩
  | cons c cs ih =>
    obtain ⟨h₁, h₂⟩ := ih (r.call c)
    cases c <;> simp_all [call, consume, disable, enable, incomplete]

end Reader

namespace Writer

@[simp] theorem setTimebound_tied (w : Writer) : (setTimebound w).tied = w.tied := by
  unfold setTimebound; split_ifs <;> rfl

theorem write_tied {w w' : Writer} {s : List UInt8} (h : w.write s = .ok w') : w'.tied = w.tied := by
  unfold write at h
  dsimp only at h
  split_ifs at h <;> cases h <;> simp only [setTimebound_tied]

@[simp] theorem close_fd (w : Writer) : w.close.fd = w.fd := by
  unfold close; split_ifs <;> rfl

@[simp] theorem close_tied (w : Writer) : w.close.tied = w.tied := by
  unfold close; split_ifs <;> rfl

end Writer

/-- The tied pair, every call on the shared descriptor, and, as the user's state, the errors each
half's error callback has been called with. -/
structure Tie where
  r : Reader
  w : Writer
  calls : List FdCall
  readerErrors : List Nat
  writerErrors : List Nat
  deriving DecidableEq, Repr

namespace Tie

/-- `ev_tie`. Its assertions, that neither half is tied yet, hold of the halves it is given. -/
def tie (r : Reader) (w : Writer) : Tie := ⟨{ r with tied := true }, { w with tied := true }, [], [], []⟩

/-- The error callbacks record their error. -/
def report (errs : List Nat) (e : Nat) : List Nat := errs ++ [e]

section Run

variable (user : List UInt8 → Bool → List ReaderCall)

/-- The read callback: what it does to the reader, from what is buffered and the end-of-file
flag. -/
def readerCallback (errs : List Nat) (r : Reader) (eof : Bool) : List Nat × Reader :=
  (errs, (user r.b.content eof).foldl Reader.call r)

/-- The rest of `reader_shutdown` after a reader operation left the reader `res.2`: if it set the
descriptor to `-1`, the read registration is cancelled and, with a writer still tied, the writer is
untied and the socket shut for reading; with none, the descriptor is closed. -/
def afterReader (p : Tie) (res : List Nat × Reader) : Tie :=
  if p.r.fd && !res.2.fd then
    if p.r.tied then ⟨res.2, { p.w with tied := false }, p.calls ++ [.cancelRead, .shutRead], res.1, p.writerErrors⟩
    else ⟨res.2, p.w, p.calls ++ [.cancelRead, .close], res.1, p.writerErrors⟩
  else { p with r := res.2, readerErrors := res.1 }

/-- The rest of `writer_shutdown`, as `afterReader` for the writer. -/
def afterWriter (p : Tie) (res : List Nat × Writer) : Tie :=
  if p.w.fd && !res.2.fd then
    if p.w.tied then ⟨{ p.r with tied := false }, res.2, p.calls ++ [.cancelWrite, .shutWrite], p.readerErrors, res.1⟩
    else ⟨p.r, res.2, p.calls ++ [.cancelWrite, .close], p.readerErrors, res.1⟩
  else { p with w := res.2, writerErrors := res.1 }

/-- One operation. A write that fails an assertion aborts. -/
def step (p : Tie) : TieOp → Except String Tie
  | .read res => .ok (p.afterReader (p.r.readable (readerCallback user) report p.readerErrors res))
  | .readerCancel => .ok (p.afterReader (p.readerErrors, p.r.cancel))
  | .readerTimeout i => .ok (p.afterReader (p.r.runTimeout (readerCallback user) report p.readerErrors i))
  | .writer op => (p.w.apply report p.writerErrors op).map p.afterWriter

def run : Tie → List TieOp → Except String Tie
  | p, [] => .ok p
  | p, op :: ops => (p.step user op).bind (run · ops)

end Run

/-! ### What one operation of a half can do -/

/-- What a reader operation can do to what the tie reads: the descriptor, once `-1`, stays so;
`tied` is left alone; and the error callback runs, once at most, only in the operation that sets the
descriptor to `-1`. -/
structure ReaderMove (r : Reader) (errs : List Nat) (res : List Nat × Reader) : Prop where
  tied : res.2.tied = r.tied
  fd : res.2.fd → r.fd
  errs : res.1 = errs ∨ r.fd ∧ res.2.fd = false ∧ ∃ e, res.1 = errs ++ [e]

/-- The same for a writer, whose callback runs exactly once, when it is shut down. -/
structure WriterMove (w : Writer) (errs : List Nat) (res : List Nat × Writer) : Prop where
  tied : res.2.tied = w.tied
  fd : res.2.fd → w.fd
  errs : if w.fd ∧ res.2.fd = false then ∃ e, res.1 = errs ++ [e] else res.1 = errs

section Moves

variable {user : List UInt8 → Bool → List ReaderCall} {r r' : Reader} {w w' : Writer} {errs : List Nat}

theorem ReaderMove.keep (ht : r'.tied = r.tied) (hf : r'.fd = r.fd) : ReaderMove r errs (errs, r') :=
  ⟨ht, hf ▸ id, .inl rfl⟩

theorem ReaderMove.shutdown (ht : r'.tied = r.tied) (hf : r'.fd = r.fd) :
    ReaderMove r errs (r'.shutdown report errs) := by
  unfold Reader.shutdown
  dsimp only
  split_ifs with hd
  · exact .keep ht hf
  · exact ⟨ht, fun h => (nomatch h), .inr ⟨by simpa [hf] using hd, rfl, _, rfl⟩⟩
  · exact ⟨ht, fun h => (nomatch h), .inl rfl⟩

theorem ReaderMove.callback (ht : r'.tied = r.tied) (hf : r'.fd = r.fd) (eof : Bool) :
    ReaderMove r errs (readerCallback user errs r' eof) :=
  have h := Reader.foldl_call (user r'.b.content eof) r'
  .keep (h.2.trans ht) (h.1.trans hf)

theorem readable_move (res : ReadResult) :
    ReaderMove r errs (r.readable (readerCallback user) report errs res) := by
  cases res <;> dsimp only [Reader.readable]
  exacts [.callback (by rfl) (by rfl) _, .callback (by rfl) (by rfl) _, .keep rfl rfl, .shutdown rfl rfl]

theorem runTimeout_move (i : Nat) :
    ReaderMove r errs (r.runTimeout (readerCallback user) report errs i) := by
  unfold Reader.runTimeout
  split
  · exact .keep rfl rfl
  · rename_i t _
    cases t <;> dsimp only [Reader.continuation, Reader.enabledCallback]
    exacts [.shutdown rfl rfl, .callback (by rfl) (by rfl) _, .callback (by rfl) (by rfl) _]

theorem WriterMove.keep (ht : w'.tied = w.tied) (hf : w'.fd = w.fd) : WriterMove w errs (errs, w') :=
  ⟨ht, hf ▸ id, by rw [if_neg (by simp [hf])]⟩

theorem WriterMove.shutdown (ht : w'.tied = w.tied) (hf : w'.fd = w.fd) :
    WriterMove w errs (w'.shutdown report errs) := by
  unfold Writer.shutdown
  split_ifs with hd
  · exact .keep ht hf
  · exact ⟨ht, fun h => (nomatch h), by rw [if_pos ⟨by simpa [hf] using hd, rfl⟩]; exact ⟨_, rfl⟩⟩

theorem writable_move (res : WriteResult) : WriterMove w errs (w.writable report errs res) := by
  cases res with
  | wrote n =>
    simp only [Writer.writable]
    split_ifs
    exacts [.shutdown rfl rfl, .keep rfl rfl, .keep (by simp [Writer.setTimebound_eq]) (by simp)]
  | again => exact .keep rfl rfl
  | error e => exact .shutdown rfl rfl

theorem apply_move {op : WriterOp} {res : List Nat × Writer} (h : w.apply report errs op = .ok res) :
    WriterMove w errs res := by
  cases op with
  | write s =>
    cases hw : w.write s with
    | error e => simp [Writer.apply, hw, Except.map] at h
    | ok w' =>
      simp only [Writer.apply, hw, Except.map, Except.ok.injEq] at h
      subst h; exact .keep (Writer.write_tied hw) (Writer.write_fd hw)
  | flush res => cases h; exact writable_move _
  | close => cases h; exact .keep (by simp) (by simp)
  | timebound =>
    cases h
    exact .shutdown (by split_ifs <;> rfl) (by split_ifs <;> rfl)
  | timeout i =>
    cases h
    unfold Writer.runTimeout
    split
    exacts [.keep rfl rfl, .shutdown rfl rfl]

end Moves

/-! ### The calls on the descriptor -/

/-- The calls on the descriptor, from which halves still have it (`rfd`, `wfd`): none; the first
half's cancel and half-close; or, once both are shut down, those and the second half's cancel and
close. -/
def Shut : Bool → Bool → List FdCall → Prop
  | true, true, calls => calls = []
  | false, true, calls => calls = [.cancelRead, .shutRead]
  | true, false, calls => calls = [.cancelWrite, .shutWrite]
  | false, false, calls =>
    calls = [.cancelRead, .shutRead, .cancelWrite, .close] ∨ calls = [.cancelWrite, .shutWrite, .cancelRead, .close]

/-- What holds of a tied pair: a half that still has the descriptor is tied exactly while the other
half has it too; the calls so far are those `Shut` allows; the reader's error callback has run at
most once, and the writer's exactly once, and only after its half was shut down. -/
structure Inv (p : Tie) : Prop where
  reader_tied : p.r.fd → p.r.tied = p.w.fd
  writer_tied : p.w.fd → p.w.tied = p.r.fd
  calls : Shut p.r.fd p.w.fd p.calls
  reader_errors : p.readerErrors.length ≤ if p.r.fd then 0 else 1
  writer_errors : p.writerErrors.length = if p.w.fd then 0 else 1

theorem tie_inv {r : Reader} {w : Writer} (hr : r.fd) (hw : w.fd) : (tie r w).Inv :=
  ⟨fun _ => hw.symm, fun _ => hr.symm, by simp [tie, hr, hw, Shut], by simp [tie], by simp [tie, hw]⟩

section Step

variable {p : Tie}

theorem ReaderMove.stay {res : List Nat × Reader} (m : ReaderMove p.r p.readerErrors res)
    (hd : ¬(p.r.fd = true ∧ res.2.fd = false)) : res.2.fd = p.r.fd ∧ res.1 = p.readerErrors := by
  have := m.fd
  refine ⟨by revert hd this; cases res.2.fd <;> cases p.r.fd <;> simp, ?_⟩
  rcases m.errs with h | ⟨h₁, h₂, -⟩
  exacts [h, absurd ⟨h₁, h₂⟩ hd]

theorem afterReader_inv (hp : p.Inv) {res : List Nat × Reader} (m : ReaderMove p.r p.readerErrors res) :
    (p.afterReader res).Inv := by
  unfold afterReader
  by_cases hd : p.r.fd = true ∧ res.2.fd = false
  · obtain ⟨hr, hr'⟩ := hd
    have hcalls := hp.calls
    have herrs : res.1.length ≤ 1 := by
      have := hp.reader_errors; rw [if_pos hr] at this
      rcases m.errs with h | ⟨-, -, e, h⟩
      · rw [h]; omega
      · rw [h, List.length_append, List.length_singleton]; omega
    rw [if_pos (by simp [hr, hr']), hp.reader_tied hr]
    have hwe := hp.writer_errors
    cases hw : p.w.fd <;> simp only [hr, hw, Shut] at hcalls hwe <;> simp only [if_true, if_false]
    · exact ⟨by simp [hr'], by simp [hw], by simp [hr', hw, hcalls, Shut], by simpa [hr'] using herrs,
        by simpa [hw] using hwe⟩
    · exact ⟨by simp [hr'], by simp [hr'], by simp [hr', hw, hcalls, Shut], by simpa [hr'] using herrs,
        by simpa [hw] using hwe⟩
  · obtain ⟨hf, he⟩ := m.stay hd
    rw [if_neg (by simpa using hd)]
    exact ⟨by simpa [hf, m.tied] using hp.reader_tied, by simpa [hf] using hp.writer_tied,
      by simpa [hf] using hp.calls, by simpa [hf, he] using hp.reader_errors, hp.writer_errors⟩

theorem WriterMove.stay {res : List Nat × Writer} (m : WriterMove p.w p.writerErrors res)
    (hd : ¬(p.w.fd = true ∧ res.2.fd = false)) : res.2.fd = p.w.fd ∧ res.1 = p.writerErrors := by
  have := m.fd
  refine ⟨by revert hd this; cases res.2.fd <;> cases p.w.fd <;> simp, ?_⟩
  simpa [if_neg hd] using m.errs

theorem afterWriter_inv (hp : p.Inv) {res : List Nat × Writer} (m : WriterMove p.w p.writerErrors res) :
    (p.afterWriter res).Inv := by
  unfold afterWriter
  by_cases hd : p.w.fd = true ∧ res.2.fd = false
  · obtain ⟨hw, hw'⟩ := hd
    have hcalls := hp.calls
    have herrs : res.1.length = 1 := by
      have := hp.writer_errors; rw [if_pos hw] at this
      have he := m.errs; rw [if_pos ⟨hw, hw'⟩] at he
      obtain ⟨e, h⟩ := he
      rw [h, List.length_append, List.length_singleton]; omega
    rw [if_pos (by simp [hw, hw']), hp.writer_tied hw]
    have hre := hp.reader_errors
    cases hr : p.r.fd <;> simp only [hr, hw, Shut] at hcalls hre <;> simp only [if_true, if_false]
    · exact ⟨by simp [hr], by simp [hw'], by simp [hr, hw', hcalls, Shut], by simpa [hr] using hre,
        by simpa [hw'] using herrs⟩
    · exact ⟨by simp [hw'], by simp [hw'], by simp [hr, hw', hcalls, Shut], by simpa [hr] using hre,
        by simpa [hw'] using herrs⟩
  · obtain ⟨hf, he⟩ := m.stay hd
    rw [if_neg (by simpa using hd)]
    exact ⟨by simpa [hf] using hp.reader_tied, by simpa [hf, m.tied] using hp.writer_tied,
      by simpa [hf] using hp.calls, hp.reader_errors, by simpa [hf, he] using hp.writer_errors⟩

variable {user : List UInt8 → Bool → List ReaderCall}

theorem step_inv (hp : p.Inv) : ∀ op {p' : Tie}, p.step user op = .ok p' → p'.Inv
  | .read res, _, h => by cases h; exact afterReader_inv hp (readable_move res)
  | .readerCancel, _, h => by cases h; exact afterReader_inv hp (.keep (by simp) (by simp))
  | .readerTimeout i, _, h => by cases h; exact afterReader_inv hp (runTimeout_move i)
  | .writer op, _, h => by
    cases ha : p.w.apply report p.writerErrors op with
    | error e => simp [step, ha, Except.map] at h
    | ok res =>
      simp only [step, ha, Except.map, Except.ok.injEq] at h
      subst h; exact afterWriter_inv hp (apply_move ha)

theorem run_inv : ∀ (ops : List TieOp) {p p' : Tie}, p.Inv → p.run user ops = .ok p' → p'.Inv
  | [], _, _, hp, h => by cases h; exact hp
  | op :: ops, p, _, hp, h => by
    rw [run] at h
    cases hs : p.step user op with
    | error e => rw [hs] at h; cases h
    | ok p₁ => rw [hs] at h; exact run_inv ops (step_inv hp op hs) h

end Step

/-- How often each call is made, from which halves still have the descriptor. -/
theorem Shut.count {rfd wfd : Bool} {calls : List FdCall} (h : Shut rfd wfd calls) :
    calls.count .close = (if rfd || wfd then 0 else 1) ∧
    calls.count .cancelRead = (if rfd then 0 else 1) ∧ calls.count .cancelWrite = (if wfd then 0 else 1) := by
  cases rfd <;> cases wfd <;> simp only [Shut] at h
  · rcases h with rfl | rfl <;> decide
  all_goals subst h; decide

/-- A close is the last call, after both cancels. -/
theorem Shut.close_last {rfd wfd : Bool} {calls : List FdCall} (h : Shut rfd wfd calls) :
    .close ∈ calls → ∃ pre, calls = pre ++ [.close] ∧ .cancelRead ∈ pre ∧ .cancelWrite ∈ pre := by
  cases rfd <;> cases wfd <;> simp only [Shut] at h
  · rcases h with rfl | rfl
    exacts [fun _ => ⟨[.cancelRead, .shutRead, .cancelWrite], rfl, by decide, by decide⟩,
      fun _ => ⟨[.cancelWrite, .shutWrite, .cancelRead], rfl, by decide, by decide⟩]
  all_goals subst h; exact fun hc => absurd hc (by decide)

/-- Over every run of a reader and a writer tied when both have their descriptor, whatever the
read callback does: the descriptor is closed at most once, and exactly once when both halves have
shut down; a close is the last call on it, after both registrations are cancelled; each half
cancels its registration exactly once, when it shuts down; and each error callback runs at most
once. -/
theorem tie_closes_once (user : List UInt8 → Bool → List ReaderCall) {r : Reader} {w : Writer}
    (hr : r.fd) (hw : w.fd) {ops : List TieOp} {p : Tie} (h : (tie r w).run user ops = .ok p) :
    p.calls.count .close ≤ 1 ∧
    (p.r.fd = false → p.w.fd = false → p.calls.count .close = 1) ∧
    (.close ∈ p.calls → ∃ pre, p.calls = pre ++ [.close] ∧ .cancelRead ∈ pre ∧ .cancelWrite ∈ pre) ∧
    p.calls.count .cancelRead = (if p.r.fd then 0 else 1) ∧
    p.calls.count .cancelWrite = (if p.w.fd then 0 else 1) ∧
    p.readerErrors.length ≤ 1 ∧ p.writerErrors.length ≤ 1 := by
  have hp := run_inv ops (tie_inv hr hw) h
  obtain ⟨hc, hcr, hcw⟩ := hp.calls.count
  refine ⟨?_, fun h₁ h₂ => by simp [hc, h₁, h₂], hp.calls.close_last, hcr, hcw, ?_, ?_⟩
  · rw [hc]; split_ifs <;> omega
  · have := hp.reader_errors; split_ifs at this <;> omega
  · have := hp.writer_errors; split_ifs at this <;> omega

/-- The writer closed and drained, then the reader cancelled: the writer shuts the socket for
writing and reports no error, and the reader closes the descriptor. -/
theorem tie_closes_once_writer_first :
    ∃ p, (tie Reader.new Writer.new).run (fun _ _ => [])
        [.writer .close, .writer (.timeout 0), .readerCancel, .readerTimeout 0] = .ok p ∧
      p.calls = [.cancelWrite, .shutWrite, .cancelRead, .close] ∧
      (p.calls.count .close ≤ 1 ∧
      (p.r.fd = false → p.w.fd = false → p.calls.count .close = 1) ∧
      (.close ∈ p.calls → ∃ pre, p.calls = pre ++ [.close] ∧ .cancelRead ∈ pre ∧ .cancelWrite ∈ pre) ∧
      p.calls.count .cancelRead = (if p.r.fd then 0 else 1) ∧
      p.calls.count .cancelWrite = (if p.w.fd then 0 else 1) ∧
      p.readerErrors.length ≤ 1 ∧ p.writerErrors.length ≤ 1) :=
  Exists.imp (fun _ (h : _ ∧ _) => ⟨h.1, h.2, tie_closes_once _ rfl rfl h.1⟩) ⟨_, rfl, rfl⟩

end Tie

end Disorder.Event

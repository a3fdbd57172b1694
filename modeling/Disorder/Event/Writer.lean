import Disorder.Event.Buffer

/-! The buffered writer of lib/event.c. Writes through the writer's sink (`ev_writer_write`) go into
its buffer, which `writer_callback` drains into the descriptor whenever it is writable. A writer has a
space bound (default 512 KiB: a write that would buffer more abandons the writer) and a time bound
(default 600 s between successful writes, kept by a timeout armed while data is buffered). It is
shut down, once, by `writer_shutdown`, which reports to the user's error callback. Failed
assertions are the result `abort`. -/

namespace Disorder.Event

/-- A zero-delay timeout a writer has scheduled on itself: `writer_shutdown`. The time-bound timeout
is kept apart, as it is armed and cancelled. -/
inductive WriterTimeout where
  | shutdown
  deriving DecidableEq, Repr

/-- What one `write` on the descriptor does: accept `n` bytes, `EINTR`/`EAGAIN`, or an error. -/
inductive WriteResult where
  | wrote (n : Nat)
  | again
  | error (errno : Nat)
  deriving DecidableEq, Repr

/-- An `ev_writer`, with whether its descriptor is enabled for writing, whether its time-bound
timeout is armed, its pending shutdowns, and (`written`) every byte `write` has accepted. `fd` is
false once `writer_shutdown` has set the descriptor to `-1`; `tied` is `reader != NULL`. -/
structure Writer where
  b : Buffer
  fd : Bool
  enabled : Bool
  eof : Bool
  timebound : Nat
  spacebound : Nat
  error : Nat
  timeout : Bool
  tied : Bool
  abandoned : Bool
  timeouts : List WriterTimeout
  written : List UInt8
  deriving DecidableEq, Repr, Inhabited

/-- `EPIPE` and `ETIMEDOUT`, the errors the writer makes up. -/
def epipe : Nat := 32
def etimedout : Nat := 110

namespace Writer

/-- `ev_writer_new`: a registered descriptor, disabled while the buffer is empty, with the default
bounds of ten minutes and 512 KiB. -/
def new : Writer := ⟨Buffer.empty, true, false, false, 10 * 60, 512 * 1024, 0, false, false, false, [], []⟩

/-- `writer_set_timebound`: arm the time-bound timeout if there is a bound and none is armed. -/
def setTimebound (w : Writer) : Writer :=
  if w.timebound ≠ 0 ∧ !w.timeout then { w with timeout := true } else w

/-- `ev_writer_write`: the sink's write. A write past the space bound abandons the writer (the first
time) and schedules its shutdown with `EPIPE`; otherwise the bytes are buffered, the descriptor is
enabled if the buffer was empty (`ev_fd_enable` asserts the descriptor is not `-1`) and the time
bound is armed. A write after shutdown is only logged before going on. -/
def write (w : Writer) (s : List UInt8) : Except String Writer :=
  if s.length = 0 then .ok w else
  if w.spacebound ≠ 0 ∧ w.b.stop - w.b.start + s.length > w.spacebound then
    if !w.abandoned then
      .ok { w with abandoned := true, enabled := false, error := epipe,
                   timeouts := w.timeouts ++ [.shutdown] }
    else .ok w
  else
    let w := { w with b := w.b.bufferSpace s.length }
    if w.b.start = w.b.stop ∧ !w.fd then .error "abort" else
    let w := if w.b.start = w.b.stop then { w with enabled := true } else w
    .ok (setTimebound { w with b := w.b.fill s })

/-- `setTimebound` only arms the time bound. -/
@[simp] theorem setTimebound_fd (w : Writer) : (setTimebound w).fd = w.fd := by
  unfold setTimebound; split_ifs <;> rfl

@[simp] theorem setTimebound_eof (w : Writer) : (setTimebound w).eof = w.eof := by
  unfold setTimebound; split_ifs <;> rfl

/-- A write leaves the descriptor alone. -/
theorem write_fd {w w' : Writer} {s : List UInt8} (h : w.write s = .ok w') : w'.fd = w.fd := by
  unfold write at h
  dsimp only at h
  split_ifs at h <;> cases h <;> simp only [setTimebound_fd]

/-- A write to a writer that has not been shut down succeeds: the assertion needs `fd != -1`. -/
theorem write_ok {w : Writer} (h : w.fd) (s : List UInt8) : ∃ w', w.write s = .ok w' := by
  unfold write
  dsimp only
  split_ifs with _ _ _ habort
  any_goals exact ⟨_, rfl⟩
  exact absurd habort.2 (by simp [h])

section Callbacks

variable {τ : Type} (callback : τ → Nat → τ)

/-- `writer_shutdown`: nothing if already shut down; else cancel the time bound and the
descriptor, set the descriptor to `-1` and call the callback with the error. Untying the reader
(the writer keeps its own pointer to it) or closing the descriptor is the tie's business:
`Event.Tie`. -/
def shutdown (u : τ) (w : Writer) : τ × Writer :=
  if !w.fd then (u, w) else
  let w := { w with timeout := false, enabled := false, fd := false }
  (callback u w.error, w)

/-- `writer_callback`: write what is buffered. Bytes written are consumed and the time bound
cancelled; an emptied buffer shuts a closed writer down or disables the descriptor, a partly
written one re-arms the time bound. An error shuts the writer down. -/
def writable (u : τ) (w : Writer) (res : WriteResult) : τ × Writer :=
  match res with
  | .wrote n =>
    let w := { w with b := w.b.consume n, timeout := false,
                      written := w.written ++ (w.b.content.take n) }
    if w.b.start = w.b.stop then
      if w.eof then shutdown callback u { w with error := 0 } else (u, { w with enabled := false })
    else (u, setTimebound w)
  | .again => (u, w)
  | .error e => shutdown callback u { w with error := e }

/-- `writer_timebound_exceeded`: abandon with `ETIMEDOUT` (the first time) and shut down. -/
def timeboundExceeded (u : τ) (w : Writer) : τ × Writer :=
  shutdown callback u (if !w.abandoned then { w with abandoned := true, error := etimedout } else w)

/-- The reactor runs the pending timeout at position `i`. -/
def runTimeout (u : τ) (w : Writer) (i : Nat) : τ × Writer :=
  match w.timeouts.get? i with
  | none => (u, w)
  | some .shutdown => shutdown callback u { w with timeouts := w.timeouts.eraseIdx i }

/-! ### The writer calls back only through its callback -/

section Invariant

variable {P : τ → Prop}

theorem shutdown_inv (hcb : ∀ u e, P u → P (callback u e)) {u : τ} (hu : P u) (w : Writer) : P (shutdown callback u w).1 := by
  unfold shutdown; dsimp only; split_ifs
  exacts [hu, hcb _ _ hu]

/-- What the error callback keeps, a write event keeps. -/
theorem writable_inv (hcb : ∀ u e, P u → P (callback u e)) {u : τ} (hu : P u) (w : Writer) (res : WriteResult) :
    P (writable callback u w res).1 := by
  unfold writable
  cases res
  · dsimp only; split_ifs
    exacts [shutdown_inv callback hcb hu _, hu, hu]
  · exact hu
  · exact shutdown_inv callback hcb hu _

/-- What the error callback keeps, an expired time bound keeps. -/
theorem timeboundExceeded_inv (hcb : ∀ u e, P u → P (callback u e)) {u : τ} (hu : P u) (w : Writer) : P (timeboundExceeded callback u w).1 :=
  shutdown_inv callback hcb hu _

/-- What the error callback keeps, a timeout of the writer keeps. -/
theorem runTimeout_inv (hcb : ∀ u e, P u → P (callback u e)) {u : τ} (hu : P u) (w : Writer) (i : Nat) : P (runTimeout callback u w i).1 := by
  unfold runTimeout
  split
  exacts [hu, shutdown_inv callback hcb hu _]

end Invariant

end Callbacks

/-- `ev_writer_close`: nothing if already closed; else mark end of output and, if nothing is
buffered, schedule the shutdown with no error. -/
def close (w : Writer) : Writer :=
  if w.eof then w else
  if w.b.start = w.b.stop then { w with eof := true, error := 0, timeouts := w.timeouts ++ [.shutdown] }
  else { w with eof := true }

end Writer

end Disorder.Event

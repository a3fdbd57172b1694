import Disorder.Event.Buffer

/-! The buffered reader of lib/event.c. A reader owns a descriptor and a buffer; when the
descriptor is readable, `reader_callback` reads into the free space at the end of the buffer and
hands the user callback everything buffered, with an end-of-file flag. The callback consumes what it
has dealt with (`ev_reader_consume`) and may ask to be called again later (`ev_reader_incomplete`).
Deferred work runs from zero-delay timeouts: `reader_shutdown`, `reader_continuation` and
`reader_enabled`. The reactor's view of the descriptor is the `enabled` flag; the pending timeouts are
kept with the reader, and the reactor may run them in any order, as its heap does not order equal
times. The user's callbacks are parameters over the user's own state. -/

namespace Disorder.Event

/-- A zero-delay timeout a reader has scheduled on itself. -/
inductive ReaderTimeout where
  | shutdown
  | continuation
  | enabled
  deriving DecidableEq, Repr

/-- What one `read` on the descriptor returns: bytes, end of file, `EINTR`/`EAGAIN`, or an error. -/
inductive ReadResult where
  | data (bs : List UInt8)
  | eof
  | again
  | error (errno : Nat)
  deriving DecidableEq, Repr

/-- An `ev_reader`, with whether its descriptor is enabled for reading and its pending timeouts.
`fd` is false once `reader_shutdown` has set the descriptor to `-1`; `tied` is `writer != NULL`. -/
structure Reader where
  b : Buffer
  fd : Bool
  enabled : Bool
  eof : Bool
  error : Nat
  tied : Bool
  timeouts : List ReaderTimeout
  deriving DecidableEq, Repr, Inhabited

namespace Reader

/-- `ev_reader_new`: a registered, enabled descriptor and an empty buffer. -/
def new : Reader := ⟨Buffer.empty, true, true, false, 0, false, []⟩

/-- `ev_reader_consume`. -/
def consume (r : Reader) (n : Nat) : Reader := { r with b := r.b.consume n }

@[simp] theorem consume_zero (r : Reader) : r.consume 0 = r := rfl

@[simp] theorem consume_consume (r : Reader) (m n : Nat) : (r.consume m).consume n = r.consume (m + n) := by
  simp [consume]

/-- `ev_reader_disable`. -/
def disable (r : Reader) : Reader := { r with enabled := false }

/-- `ev_reader_incomplete`: disable the descriptor and schedule `reader_continuation`. -/
def incomplete (r : Reader) : Reader :=
  { r with enabled := false, timeouts := r.timeouts ++ [.continuation] }

/-- `ev_reader_enable`: re-enable the descriptor unless at end of file, and schedule
`reader_enabled`. -/
def enable (r : Reader) : Reader :=
  { r with enabled := r.enabled || !r.eof, timeouts := r.timeouts ++ [.enabled] }

/-- `ev_reader_cancel`: nothing if already shut down, else disable and schedule `reader_shutdown`. -/
def cancel (r : Reader) : Reader :=
  if r.fd then { r with enabled := false, timeouts := r.timeouts ++ [.shutdown] } else r

section Callbacks

variable {τ : Type} (callback : τ → Reader → Bool → τ × Reader) (errorCallback : τ → Nat → τ)

/-- `reader_shutdown`: nothing if already shut down; else cancel the descriptor, set `eof`, set the
descriptor to `-1`, and call the error callback if there is an error. Untying the writer (the
reader keeps its own pointer to it) or closing the descriptor is the tie's business:
`Event.Tie`. -/
def shutdown (u : τ) (r : Reader) : τ × Reader :=
  if !r.fd then (u, r) else
  let r := { r with fd := false, enabled := false, eof := true }
  (if r.error ≠ 0 then errorCallback u r.error else u, r)

/-- `reader_callback` (event.c): make room for one byte, read, and hand everything buffered to the
user callback; at end of file, first disable the descriptor and schedule the shutdown. -/
def readable (u : τ) (r : Reader) (res : ReadResult) : τ × Reader :=
  let r := { r with b := r.b.bufferSpace 1 }
  match res with
  | .data bs => callback u { r with b := r.b.fill bs } false
  | .eof => callback u { r with enabled := false, timeouts := r.timeouts ++ [.shutdown] } true
  | .again => (u, r)
  | .error e => shutdown errorCallback u { r with error := e }

/-- `reader_continuation`: re-enable unless at end of file, then call the user callback. -/
def continuation (u : τ) (r : Reader) : τ × Reader :=
  callback u { r with enabled := r.enabled || !r.eof } r.eof

/-- `reader_enabled`: call the user callback. -/
def enabledCallback (u : τ) (r : Reader) : τ × Reader := callback u r r.eof

/-- The reactor runs the pending timeout at position `i`. -/
def runTimeout (u : τ) (r : Reader) (i : Nat) : τ × Reader :=
  match r.timeouts.get? i with
  | none => (u, r)
  | some t =>
    let r := { r with timeouts := r.timeouts.eraseIdx i }
    match t with
    | .shutdown => shutdown errorCallback u r
    | .continuation => continuation callback u r
    | .enabled => enabledCallback callback u r

/-! ### The reader calls back only through its callbacks -/

section Invariant

variable {P : τ → Prop}

theorem shutdown_inv (herr : ∀ u e, P u → P (errorCallback u e)) {u : τ} (hu : P u) (r : Reader) :
    P (shutdown errorCallback u r).1 := by
  unfold shutdown; dsimp only; split_ifs
  exacts [hu, herr _ _ hu, hu]

/-- What the user's callbacks keep, a read event keeps. -/
theorem readable_inv (hcb : ∀ u r eof, P u → P (callback u r eof).1)
    (herr : ∀ u e, P u → P (errorCallback u e)) {u : τ} (hu : P u) (r : Reader) (res : ReadResult) :
    P (readable callback errorCallback u r res).1 := by
  unfold readable
  cases res
  exacts [hcb _ _ _ hu, hcb _ _ _ hu, hu, shutdown_inv errorCallback herr hu _]

/-- What the user's callbacks keep, a timeout of the reader keeps. -/
theorem runTimeout_inv (hcb : ∀ u r eof, P u → P (callback u r eof).1)
    (herr : ∀ u e, P u → P (errorCallback u e)) {u : τ} (hu : P u) (r : Reader) (i : Nat) :
    P (runTimeout callback errorCallback u r i).1 := by
  unfold runTimeout
  split
  · exact hu
  · rename_i k _
    cases k
    exacts [shutdown_inv errorCallback herr hu _, hcb _ _ _ hu, hcb _ _ _ hu]

end Invariant

end Callbacks

end Reader

end Disorder.Event

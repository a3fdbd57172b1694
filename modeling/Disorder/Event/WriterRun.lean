import Disorder.Event.Writer

/-! One buffered writer over a whole run: writes through its sink, its descriptor written with
whatever `write` returns, `ev_writer_close`, its time bound expiring and its pending shutdowns
running, in any order. With a space bound `S > 0`, the bytes `write` has taken followed by the bytes
still buffered are always the bytes of the accepted writes, in order; at most `S` bytes are ever
buffered; a write of `n` bytes onto `b` buffered is accepted if `b + n ≤ S` and dropped otherwise,
the first drop abandoning the writer and scheduling its shutdown with `EPIPE`; and while the writer
is neither abandoned nor shut down its descriptor is enabled, and a non-zero time bound armed,
exactly when something is buffered. The exception is a write after `writer_shutdown`: onto an
empty buffer it fails the assertion of `ev_fd_enable`. -/

namespace Disorder.Event

/-- What can happen to a writer: a write through its sink, `writer_callback` (from the reactor or
`ev_writer_flush`) with what `write` returned, `ev_writer_close`, its time bound expiring, and its
`i`-th pending timeout running. -/
inductive WriterOp where
  | write (s : List UInt8)
  | flush (res : WriteResult)
  | close
  | timebound
  | timeout (i : Nat)
  deriving DecidableEq, Repr

theorem Buffer.content_eq_nil_iff {b : Buffer} (h : b.Wf) : b.content = [] ↔ b.start = b.stop := by
  rw [← List.length_eq_zero, Buffer.content_length h]; have := h.1; omega

namespace Writer

/-- What `write` can report: never more bytes than it was asked to write. -/
def sysWrite (count : Nat) : WriteResult → WriteResult
  | .wrote n => .wrote (min n count)
  | r => r

/-- One operation, with the user's state that the writer's callback acts on. -/
def apply {τ : Type} (callback : τ → Nat → τ) (u : τ) (w : Writer) : WriterOp → Except String (τ × Writer)
  | .write s => (w.write s).map (u, ·)
  | .flush res => .ok (w.writable callback u (sysWrite (w.b.stop - w.b.start) res))
  | .close => .ok (u, w.close)
  | .timebound => .ok (w.timeboundExceeded callback u)
  | .timeout i => .ok (w.runTimeout callback u i)

/-- One operation on the writer alone. -/
def step (w : Writer) (op : WriterOp) : Except String Writer :=
  (w.apply (fun _ _ => ()) () op).map Prod.snd

/-! ### What each operation does -/

variable {w : Writer}

theorem setTimebound_eq : setTimebound w = { w with timeout := w.timeout || decide (w.timebound ≠ 0) } := by
  rcases w with ⟨b, fd, en, eof, tb, sb, err, tmo, ti, ab, tos, wr⟩
  cases tmo <;> by_cases ht : tb = 0 <;> simp [setTimebound, ht]

section Shutdown

variable {τ : Type} (callback : τ → Nat → τ) (u : τ)

@[simp] theorem shutdown_fd : (shutdown callback u w).2.fd = false := by
  unfold shutdown; split_ifs with h <;> simp_all

@[simp] theorem shutdown_b : (shutdown callback u w).2.b = w.b := by
  unfold shutdown; split_ifs <;> rfl

@[simp] theorem shutdown_written : (shutdown callback u w).2.written = w.written := by
  unfold shutdown; split_ifs <;> rfl

@[simp] theorem shutdown_spacebound : (shutdown callback u w).2.spacebound = w.spacebound := by
  unfold shutdown; split_ifs <;> rfl

@[simp] theorem shutdown_timebound : (shutdown callback u w).2.timebound = w.timebound := by
  unfold shutdown; split_ifs <;> rfl

end Shutdown

/-- An accepted write: the bytes are added after the buffered ones, the descriptor is enabled if
the buffer was empty, and the time bound is armed. -/
theorem write_accept {s : List UInt8} (hwf : w.b.Wf) (hs : s ≠ [])
    (hfit : ¬(w.spacebound ≠ 0 ∧ w.b.stop - w.b.start + s.length > w.spacebound))
    (hlive : w.fd = true ∨ w.b.start ≠ w.b.stop) :
    w.write s = .ok { w with b := (w.b.bufferSpace s.length).fill s,
                             enabled := w.enabled || decide (w.b.start = w.b.stop),
                             timeout := w.timeout || decide (w.timebound ≠ 0) } := by
  obtain ⟨hwf', hc, -⟩ := Buffer.bufferSpace_spec hwf s.length
  have hempty : (w.b.bufferSpace s.length).start = (w.b.bufferSpace s.length).stop ↔ w.b.start = w.b.stop := by
    rw [← Buffer.content_eq_nil_iff hwf', hc, Buffer.content_eq_nil_iff hwf]
  have h0 : s.length ≠ 0 := fun h => hs (List.length_eq_zero.1 h)
  unfold write
  simp only [h0, hfit, if_false, hempty]
  by_cases he : w.b.start = w.b.stop
  · have hfd : w.fd = true := hlive.resolve_right (not_not.2 he)
    simp [he, hfd, setTimebound_eq]
  · simp [he, setTimebound_eq]

/-- A write that does not fit is dropped; the first one abandons the writer, disables its
descriptor and schedules its shutdown with `EPIPE`. -/
theorem write_drop {s : List UInt8} (hs : s ≠ [])
    (hover : w.spacebound ≠ 0 ∧ w.b.stop - w.b.start + s.length > w.spacebound) :
    w.write s = .ok (if w.abandoned then w else
      { w with abandoned := true, enabled := false, error := epipe, timeouts := w.timeouts ++ [.shutdown] }) := by
  have h0 : s.length ≠ 0 := fun h => hs (List.length_eq_zero.1 h)
  unfold write
  cases w.abandoned <;> simp [h0, hover]

/-- After `writer_shutdown`, a write onto an empty buffer fails `ev_fd_enable`'s assertion. -/
theorem write_after_shutdown {s : List UInt8} (hwf : w.b.Wf) (hfd : w.fd = false) (he : w.b.content = [])
    (hs : s ≠ []) (hfit : s.length ≤ w.spacebound) : w.write s = .error "abort" := by
  obtain ⟨hwf', hc, -⟩ := Buffer.bufferSpace_spec hwf s.length
  have hempty : (w.b.bufferSpace s.length).start = (w.b.bufferSpace s.length).stop := by
    rw [← Buffer.content_eq_nil_iff hwf', hc, he]
  have h0 : s.length ≠ 0 := fun h => hs (List.length_eq_zero.1 h)
  have hstop : w.b.stop - w.b.start = 0 := by rw [← Buffer.content_length hwf, he]; rfl
  unfold write
  simp [h0, hempty, hfd, hstop, hfit]

end Writer

/-- A writer with the bytes of every write it accepted, in order. -/
structure WriterTrace where
  w : Writer
  accepted : List UInt8

namespace WriterTrace

/-- A writer fresh from `ev_writer_new` whose space and time bounds were then set to `S` and `T`. -/
def fresh (S T : Nat) : WriterTrace := ⟨{ Writer.new with spacebound := S, timebound := T }, []⟩

/-- One operation. A write is accepted, by the account kept here, when the bytes buffered and its
own fit in the space bound. -/
def step (o : WriterTrace) (op : WriterOp) : Except String WriterTrace :=
  (o.w.step op).map fun w => ⟨w, o.accepted ++ match op with
    | .write s => if o.w.b.stop - o.w.b.start + s.length ≤ o.w.spacebound then s else []
    | _ => []⟩

def run : WriterTrace → List WriterOp → Except String WriterTrace
  | o, [] => .ok o
  | o, op :: ops => (o.step op).bind (run · ops)

/-- What holds of a writer's bytes under space bound `S`: the buffer is well formed, and the bytes
taken by `write` followed by the buffered ones are the accepted ones, at most `S` of them
buffered. -/
structure Bytes (S : Nat) (w : Writer) (accepted : List UInt8) : Prop where
  wf : w.b.Wf
  spacebound : w.spacebound = S
  stream : w.written ++ w.b.content = accepted
  space : w.b.content.length ≤ S

/-- What holds of every writer a run reaches, under space bound `S` and time bound `T`: while it
is neither shut down nor abandoned, its descriptor is enabled, and its time bound armed, exactly
when something is buffered. -/
structure Good (S T : Nat) (o : WriterTrace) extends Bytes S o.w o.accepted : Prop where
  timebound : o.w.timebound = T
  enabled : o.w.fd → o.w.abandoned = false → (o.w.enabled ↔ o.w.b.content ≠ [])
  armed : o.w.fd → o.w.abandoned = false → T ≠ 0 → (o.w.timeout ↔ o.w.b.content ≠ [])

variable {S T : Nat} {o : WriterTrace} {w : Writer} {a : List UInt8}

theorem fresh_good (S T : Nat) : Good S T (fresh S T) :=
  ⟨⟨⟨le_rfl, le_rfl⟩, rfl, rfl, Nat.zero_le _⟩, rfl,
    fun _ _ => by simp [fresh, Writer.new, Buffer.empty, Buffer.content],
    fun _ _ _ => by simp [fresh, Writer.new, Buffer.empty, Buffer.content]⟩

theorem Bytes.shutdown {τ : Type} (callback : τ → Nat → τ) (u : τ) (hb : Bytes S w a) :
    Bytes S (w.shutdown callback u).2 a := by
  obtain ⟨h₁, h₂, h₃, h₄⟩ := hb
  exact ⟨by simpa using h₁, by simpa using h₂, by simpa using h₃, by simpa using h₄⟩

/-- A shut-down writer only needs its bytes in order. -/
theorem Good.of_down (hb : Bytes S w a) (ht : w.timebound = T) (hfd : w.fd = false) : Good S T ⟨w, a⟩ :=
  ⟨hb, ht, fun h => absurd h (by simp [hfd]), fun h => absurd h (by simp [hfd])⟩

/-- So does an abandoned one. -/
theorem Good.of_abandoned (hb : Bytes S w a) (ht : w.timebound = T) (hab : w.abandoned = true) :
    Good S T ⟨w, a⟩ :=
  ⟨hb, ht, fun _ h => absurd (hab.symm.trans h) Bool.noConfusion,
    fun _ h => absurd (hab.symm.trans h) Bool.noConfusion⟩

theorem Good.shutdown {τ : Type} (callback : τ → Nat → τ) (u : τ) (hb : Bytes S w a) (ht : w.timebound = T) :
    Good S T ⟨(w.shutdown callback u).2, a⟩ :=
  .of_down (hb.shutdown callback u) (by simpa using ht) (by simp)

/-- A write keeps the invariant, and adds to the accepted bytes exactly when it fits. -/
theorem write_good (hS : 0 < S) (hg : Good S T o) {s : List UInt8} {w' : Writer} (h : o.w.write s = .ok w') :
    Good S T ⟨w', o.accepted ++ if o.w.b.stop - o.w.b.start + s.length ≤ o.w.spacebound then s else []⟩ := by
  have hlen := Buffer.content_length hg.wf
  have hS' := hg.spacebound
  by_cases hs : s = []
  · subst hs
    have : w' = o.w := by simpa [Writer.write] using h.symm
    subst this
    simpa using hg
  by_cases hover : o.w.spacebound ≠ 0 ∧ o.w.b.stop - o.w.b.start + s.length > o.w.spacebound
  · rw [Writer.write_drop hs hover] at h
    cases h
    rw [if_neg (show ¬(o.w.b.stop - o.w.b.start + s.length ≤ o.w.spacebound) by omega), List.append_nil]
    split_ifs with hab
    · exact hg
    · exact .of_abandoned ⟨hg.wf, hg.spacebound, hg.stream, hg.space⟩ hg.timebound rfl
  by_cases hlive : o.w.fd = true ∨ o.w.b.start ≠ o.w.b.stop
  · rw [Writer.write_accept hg.wf hs hover hlive] at h
    cases h
    obtain ⟨hwf, hc, -⟩ := Buffer.bufferSpace_spec hg.wf s.length
    obtain ⟨hwf', hc'⟩ := Buffer.fill_spec hwf s
    have hne : o.w.b.content ++ s ≠ [] := by simp [hs]
    refine ⟨⟨hwf', hg.spacebound, ?_, ?_⟩, hg.timebound, fun hfd hab => ?_, fun _ _ hT => ?_⟩
    · rw [if_pos (by omega), ← hg.stream]; simp [hc', hc]
    · rw [hc', hc, List.length_append, hlen]; omega
    · simp only [hc', hc, ne_eq, hne, not_false_eq_true, iff_true, Bool.or_eq_true, decide_eq_true_eq]
      by_cases he : o.w.b.start = o.w.b.stop
      · exact .inr he
      · exact .inl ((hg.enabled hfd hab).2 (by rwa [ne_eq, Buffer.content_eq_nil_iff hg.wf]))
    · simp [hc', hc, hne, hg.timebound, hT]
  · rw [not_or, not_not] at hlive
    rw [Writer.write_after_shutdown hg.wf (by simpa using hlive.1) ((Buffer.content_eq_nil_iff hg.wf).2 hlive.2)
      hs (by have := hS'; omega)] at h
    cases h

/-- `writer_callback` keeps the invariant, whatever `write` returned. -/
theorem flush_good (hg : Good S T o) (res : WriteResult) :
    Good S T ⟨(o.w.writable (fun _ _ => ()) () (Writer.sysWrite (o.w.b.stop - o.w.b.start) res)).2, o.accepted⟩ := by
  cases res with
  | again => exact hg
  | error e => exact .shutdown _ _ ⟨hg.wf, hg.spacebound, hg.stream, hg.space⟩ hg.timebound
  | wrote n =>
    simp only [Writer.writable, Writer.sysWrite]
    generalize hm : min n (o.w.b.stop - o.w.b.start) = m
    have hn : m ≤ o.w.b.content.length := by
      rw [Buffer.content_length hg.wf, ← hm]; exact min_le_right _ _
    obtain ⟨hwf, hc⟩ := Buffer.consume_spec hg.wf hn
    have hb₁ : Bytes S { o.w with b := o.w.b.consume m, timeout := false,
                                  written := o.w.written ++ o.w.b.content.take m } o.accepted :=
      ⟨hwf, hg.spacebound, by simp [hc, ← hg.stream], by rw [hc, List.length_drop]; have := hg.space; omega⟩
    split_ifs with he heof
    · exact .shutdown _ _ ⟨hb₁.wf, hb₁.spacebound, hb₁.stream, hb₁.space⟩ hg.timebound
    · have hnil : o.w.b.content.drop m = [] := by
        rw [← hc, Buffer.content_eq_nil_iff hwf]; exact he
      exact ⟨⟨hb₁.wf, hb₁.spacebound, hb₁.stream, hb₁.space⟩, hg.timebound,
        fun _ _ => by simp [hc, hnil], fun _ _ _ => by simp [hc, hnil]⟩
    · have hne : o.w.b.content.drop m ≠ [] := by
        rw [← hc, ne_eq, Buffer.content_eq_nil_iff hwf]; exact he
      have hne' : o.w.b.content ≠ [] := fun h => hne (by simp [h])
      rw [Writer.setTimebound_eq]
      exact ⟨⟨hb₁.wf, hb₁.spacebound, hb₁.stream, hb₁.space⟩, hg.timebound,
        fun hfd hab => by simpa [hc, hne] using (hg.enabled hfd hab).2 hne',
        fun _ _ hT => by simp [hc, hne, hg.timebound, hT]⟩

theorem step_good (hS : 0 < S) (hg : Good S T o) : ∀ op {o' : WriterTrace}, o.step op = .ok o' → Good S T o'
  | .write s, _, h => by
    cases hw : o.w.write s with
    | error e => simp [step, Writer.step, Writer.apply, hw, Except.map] at h
    | ok w' =>
      simp only [step, Writer.step, Writer.apply, hw, Except.map, Except.ok.injEq] at h
      subst h; exact write_good hS hg hw
  | .flush res, _, h => by
    simp only [step, Writer.step, Writer.apply, Except.map, Except.ok.injEq, List.append_nil] at h
    subst h; exact flush_good hg res
  | .close, _, h => by
    simp only [step, Writer.step, Writer.apply, Except.map, Except.ok.injEq, List.append_nil] at h
    subst h
    unfold Writer.close
    split_ifs
    exacts [hg, ⟨⟨hg.wf, hg.spacebound, hg.stream, hg.space⟩, hg.timebound, hg.enabled, hg.armed⟩,
      ⟨⟨hg.wf, hg.spacebound, hg.stream, hg.space⟩, hg.timebound, hg.enabled, hg.armed⟩]
  | .timebound, _, h => by
    simp only [step, Writer.step, Writer.apply, Except.map, Except.ok.injEq, List.append_nil] at h
    subst h
    unfold Writer.timeboundExceeded
    split_ifs
    exacts [.shutdown _ _ ⟨hg.wf, hg.spacebound, hg.stream, hg.space⟩ hg.timebound, .shutdown _ _ hg.toBytes hg.timebound]
  | .timeout i, _, h => by
    simp only [step, Writer.step, Writer.apply, Except.map, Except.ok.injEq, List.append_nil] at h
    subst h
    unfold Writer.runTimeout
    split
    exacts [hg, .shutdown _ _ ⟨hg.wf, hg.spacebound, hg.stream, hg.space⟩ hg.timebound]

theorem run_good (hS : 0 < S) : ∀ (ops : List WriterOp) {o o' : WriterTrace}, Good S T o → o.run ops = .ok o' →
    Good S T o'
  | [], _, _, hg, h => by cases h; exact hg
  | op :: ops, o, _, hg, h => by
    rw [run] at h
    cases ho : o.step op with
    | error e => rw [ho] at h; cases h
    | ok o₁ => rw [ho] at h; exact run_good hS ops (step_good hS hg op ho) h

/-! ### A writer's whole life -/

/-- Every run that leaves its writer shut down with nothing buffered (a clean close, drained) ends
the writer's tolerance of late writes: the next write of bytes that fit in the space bound calls
`ev_fd_enable` on descriptor `-1` and fails its assertion. -/
theorem write_after_drained_shutdown {S T : Nat} (hS : 0 < S) {ops : List WriterOp} {o : WriterTrace}
    (h : (fresh S T).run ops = .ok o) (hfd : o.w.fd = false) (he : o.w.b.content = [])
    {s : List UInt8} (hs : s ≠ []) (hfit : s.length ≤ S) : o.w.write s = .error "abort" := by
  have hg := run_good hS ops (fresh_good S T) h
  exact Writer.write_after_shutdown hg.wf hfd he hs (hg.spacebound ▸ hfit)

/-- One byte written, the writer closed, and the byte written out: the flush shuts the writer down,
and a further one-byte write aborts. -/
theorem write_after_drained_shutdown_one :
    ∃ o, (fresh 4 600).run [.write [1], .close, .flush (.wrote 1)] = .ok o ∧ o.w.fd = false ∧
      o.w.b.content = [] ∧ o.w.write [2] = .error "abort" :=
  Exists.imp (fun _ (h : _ ∧ _ ∧ _) =>
    ⟨h.1, h.2.1, h.2.2, write_after_drained_shutdown (by decide) h.1 h.2.1 h.2.2 (by decide) (by decide)⟩)
    ⟨_, rfl, rfl, rfl⟩

end WriterTrace

end Disorder.Event

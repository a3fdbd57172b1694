import Disorder.Server.Session

/-! What no run of the server undoes, whatever the interleaving of its events. Every step is made
of operations `Grows` is closed under: the handlers (through the `commands` table and `body_line`),
the loop of `reader_callback`, the teardown of `reader_error`, `writer_error` and end of file, the
completions of suspended commands, `listen_callback` and the event log's `logclient`. The reader
and writer of lib/event.c hand their callbacks' results back unchanged, so each event grows the
world, and so does every run (`run_grows`). -/

namespace Disorder.Server

open Disorder.Event World

variable {σ : Type} (B : Backend σ) (t : Nat)

/-! ### Tearing a connection down -/

section Teardown

variable {w w₁ : World σ}

theorem removeConnection_grows : Grows w (removeConnection B t w) := by
  unfold removeConnection
  refine Grows.trans ?_ .eraseConnection
  split_ifs
  exacts [.of_setConn rfl rfl (List.prefix_refl _), .refl w]

theorem readerEof_grows : Grows w (readerEof B t w) := by
  refine (Grows.modifyConn ?_).trans ((Grows.ite_modifyConn ?_).trans (removeConnection_grows B t)) <;>
    exact fun _ => List.prefix_refl _

/-- The end of the loop: end of file tears the connection down. -/
theorem ite_readerEof_grows (h : Grows w w₁) (eof : Bool) :
    Grows w (if eof then readerEof B t w₁ else w₁) := by
  split_ifs
  exacts [h.trans (readerEof_grows B t), h]

theorem setReader_grows (rd : Reader) : Grows w (w.setReader t rd) :=
  .modifyConn fun _ => List.prefix_refl _

theorem setWriter_grows (wr : Writer) : Grows w (w.setWriter t wr) :=
  .modifyConn fun _ => List.prefix_refl _

end Teardown

/-! ### The callbacks of a connection's reader and writer -/

section Loop

variable (lr : List UInt8 → World σ → Except Halt (Int × World σ))

/-- Every line the loop hands to a line reader that only grows the world grows it. -/
theorem readerLoop_grows (hlr : ∀ l w₁, HandlerGrows w₁ (lr l w₁)) {w : World σ} (eof : Bool) :
    ∀ acc bs (w₁ : World σ) (r : Reader), Grows w w₁ →
      ResultGrows w (readerLoop B t lr eof acc bs w₁ r).1
  | _, [], w₁, _, h => by
    rw [readerLoop]; exact .ok (ite_readerEof_grows B t h eof)
  | acc, b :: rest, w₁, r, h => by
    rw [readerLoop]
    split
    · dsimp only
      split
      · exact .error
      next n w₂ heq =>
        have h₂ := h.trans (hlr _ _ n w₂ heq)
        split
        exacts [.ok h₂, readerLoop_grows hlr eof [] rest w₂ _ h₂]
    · exact readerLoop_grows hlr eof _ rest w₁ r h

theorem readerCallback_grows (hlr : ∀ l w₁, HandlerGrows w₁ (lr l w₁)) (w : World σ) :
    ∀ u r eof, ResultGrows w u → ResultGrows w (readerCallback B t lr u r eof).1
  | .error _, _, _, _ => .error
  | .ok w₁, r, eof, hu => readerLoop_grows B t lr hlr eof [] _ w₁ r (hu w₁ rfl)

end Loop

section Callbacks

variable (w : World σ)

theorem loggingReaderCallback_grows :
    ∀ u r eof, ResultGrows w u → ResultGrows w (loggingReaderCallback B t u r eof).1
  | .error _, _, _, _ => .error
  | .ok w₁, _, eof, hu => .ok (ite_readerEof_grows B t (hu w₁ rfl) eof)

theorem redirectReaderCallback_grows :
    ∀ u r eof, ResultGrows w u → ResultGrows w (redirectReaderCallback B t u r eof).1
  | .error _, _, _, _ => .error
  | .ok w₁, r, eof, hu => by
    rw [redirectReaderCallback]
    split
    exacts [readerCallback_grows B t _ (fun l _ => lineReader_grows B t l) w _ r eof hu,
      loggingReaderCallback_grows B t w _ r eof hu]

theorem readerError_grows : ∀ u e, ResultGrows w u → ResultGrows w (readerError B t u e) :=
  fun _ _ hu => .map hu fun _ => by
    refine (Grows.ite_modifyConn ?_).trans ((Grows.modifyConn ?_).trans (removeConnection_grows B t)) <;>
      exact fun _ => List.prefix_refl _

theorem writerError_grows : ∀ u e, ResultGrows w u → ResultGrows w (writerError B t u e) :=
  fun _ _ hu => .map hu fun _ => by
    refine (Grows.ite_modifyConn ?_).trans ((Grows.modifyConn ?_).trans (removeConnection_grows B t)) <;>
      exact fun _ => List.prefix_refl _

end Callbacks

/-! ### Completions and new connections -/

section Completions

variable {w w₁ : World σ}

theorem readerEnable_grows (h : Grows w w₁) : ResultGrows w (readerEnable t w₁) :=
  .ite .error (.ok (h.trans (.modifyConn fun _ => List.prefix_refl _)))

theorem gotStats_grows (stats : String) : ResultGrows w (gotStats t stats w) :=
  .bind (.write (.refl w)) fun _ h => readerEnable_grows t h

theorem finishedRescan_grows : ResultGrows w (finishedRescan t w) :=
  .bind (.write (.refl w)) fun _ h => readerEnable_grows t h

theorem startFreshRescan_grows : ResultGrows w (startFreshRescan B t w) :=
  .ite (.ite (.ok (.of_conns rfl rfl)) (.bind (.write (.refl w)) fun _ h => readerEnable_grows t h))
    (.ite (.ok (.of_conns rfl rfl)) (.bind (.write (.of_conns rfl rfl)) fun _ h => readerEnable_grows t h))

theorem sentReminder_grows (status : Nat) : ResultGrows w (sentReminder t status w) :=
  .bind (.write (.refl w)) fun _ h => readerEnable_grows t h

theorem logclient_grows (msg : String) (d : Nat) : ResultGrows w (logclient msg d w) :=
  .ite (.ok (.modifyConn fun _ => List.prefix_refl _)) <| .ite (.ok (.refl w)) <| .ite (.ok (.refl w)) <|
    .write (.refl w)

theorem eventlogFanout_grows (msg : String) : ResultGrows w (eventlogFanout msg w) :=
  .foldlM (fun _ d h => .ite (.pre (logclient_grows msg d) h) (.ok h)) (.refl w) _

/-- A new connection object, listed under the next tag, greeted. -/
theorem listenCallback_grows (l : Listener) (peer : Option String) :
    ResultGrows w (listenCallback B l peer w) := by
  unfold listenCallback
  rcases B.gcryRandomize w.db 16 with ⟨nonce, db⟩
  exact .write (.of_append rfl rfl)

end Completions

/-! ### Every event, every run -/

/-- Every event grows the world: the reader and writer of lib/event.c only pass on what their
callbacks return, and the reactor puts the reader or writer back into it. -/
theorem step_grows (w : World σ) : ∀ e, ResultGrows w (step B w e)
  | .accept l peer => listenCallback_grows B l peer
  | .read t res => .ite (.ok (.refl w)) <| .map
      (Reader.readable_inv _ _ (redirectReaderCallback_grows B t w) (readerError_grows B t w)
        (.ok (.refl w)) _ res) fun _ => setReader_grows t _
  | .write t res => .ite (.ok (.refl w)) <| .map
      (Writer.writable_inv _ (writerError_grows B t w) (.ok (.refl w)) _ res) fun _ => setWriter_grows t _
  | .readerTimeout t i => .map
      (Reader.runTimeout_inv _ _ (redirectReaderCallback_grows B t w) (readerError_grows B t w)
        (.ok (.refl w)) _ i) fun _ => setReader_grows t _
  | .writerTimeout t i => .map
      (Writer.runTimeout_inv _ (writerError_grows B t w) (.ok (.refl w)) _ i) fun _ => setWriter_grows t _
  | .timebound t => .ite (.ok (.refl w)) <| .map
      (Writer.timeboundExceeded_inv _ (writerError_grows B t w) (.ok (.refl w)) _)
      fun _ => setWriter_grows t _
  | .gotStats i stats => by
    rw [step]; split
    exacts [.pre (gotStats_grows _ stats) (.of_conns rfl rfl), .ok (.refl w)]
  | .rescanned i => by
    rw [step]; split
    exacts [.pre (finishedRescan_grows _) (.of_conns rfl rfl),
      .pre (startFreshRescan_grows B _) (.of_conns rfl rfl), .ok (.refl w)]
  | .childExit i status => by
    rw [step]; split
    exacts [.pre (sentReminder_grows _ status) (.of_conns rfl rfl), .ok (.refl w)]
  | .eventlog msg => eventlogFanout_grows msg

theorem run_grows : ∀ (w : World σ) es, ResultGrows w (run B w es)
  | w, [] => .ok (.refl w)
  | w, e :: es => .bind (step_grows B w e) fun w₁ h => .pre (run_grows w₁ es) h

end Disorder.Server

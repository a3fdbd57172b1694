import Disorder.Server.Lines

/-! What a connection is sent, over runs of the event loop. A command that suspends (stats, rescan
with wait, reminder) returns 0 to `reader_callback`, which then neither disables the reader nor
stops reading: when no bytes are left it just returns, and the next line to arrive is dispatched at
once, so its reply goes out before the suspended command's. And nothing ties the pending completion
to the connection's life: a client that closes its end before the completion runs makes
`reader_callback` forget the writer, and the completion's `ev_writer_sink(c->w)` is then fatal.
Separately, `c_playing_hls` writes two status lines when HLS is off. -/

namespace Disorder.Server

open Disorder.Event

variable {σ : Type} (B : Backend σ) (t : Nat)

/-- Connection `t` is open and waiting for a command: it has its reader and writer, the reader's
descriptor is enabled with nothing buffered, and it is on `reader_callback` and `command`. -/
structure Idle (w : World σ) (t : Nat) : Prop where
  lt : t < w.conns.length
  hasReader : (w.conn t).r
  hasWriter : (w.conn t).w
  writerOpen : (w.conn t).wr.fd
  reading : ((w.conn t).rd.fd && (w.conn t).rd.enabled) = true
  wf : (w.conn t).rd.b.Wf
  empty : (w.conn t).rd.b.content = []
  reader : (w.conn t).reader = .command
  lineReader : (w.conn t).lineReader = .command

/-- A reader that has handed every buffered line over, and stays enabled. -/
structure Drained (rd : Reader) : Prop where
  reading : (rd.fd && rd.enabled) = true
  wf : rd.b.Wf
  empty : rd.b.content = []

section Step

variable {w : World σ} {t}

theorem Idle.of_conns {w' : World σ} (hi : Idle w t) (h : w'.conns = w.conns) : Idle w' t := by
  obtain ⟨lt, r, ww, fd, reading, wf, empty, reader, lineReader⟩ := hi
  have hc : w'.conn t = w.conn t := World.conn_congr h t
  exact ⟨h ▸ lt, hc ▸ r, hc ▸ ww, hc ▸ fd, hc ▸ reading, hc ▸ wf, hc ▸ empty, hc ▸ reader, hc ▸ lineReader⟩

theorem Idle.setReader {rd : Reader} (hi : Idle w t) (hd : Drained rd) : Idle (w.setReader t rd) t := by
  have hc : (w.setReader t rd).conn t = { w.conn t with rd := rd } := World.conn_modifyConn_self hi.lt _
  exact ⟨by simpa [World.setReader] using hi.lt, hc ▸ hi.hasReader, hc ▸ hi.hasWriter, hc ▸ hi.writerOpen, hc ▸ hd.reading,
    hc ▸ hd.wf, hc ▸ hd.empty, hc ▸ hi.reader, hc ▸ hi.lineReader⟩

/-- A reply keeps a connection idle. -/
theorem Idle.reply {s : String} {n : Int} {w' : World σ} (hi : Idle w t) (h : w.reply t s = .ok (n, w')) :
    Idle w' t := by
  obtain ⟨-, wr, hfd, rfl⟩ := World.reply_frame h
  have hc := World.conn_setConn_self (c := { w.conn t with wr := wr, out := (w.conn t).out ++ [s] }) hi.lt
  refine ⟨by simpa using hi.lt, ?_, ?_, ?_, ?_, ?_, ?_, ?_, ?_⟩ <;> rw [hc]
  exacts [hi.hasReader, hi.hasWriter, hfd.trans hi.writerOpen, hi.reading, hi.wf, hi.empty, hi.reader,
    hi.lineReader]

/-- Reading one line on an idle connection runs `command` on it; whatever the command returns,
with nothing left buffered the reader stays enabled and drained. -/
theorem step_read_line {l : List UInt8} (hi : Idle w t) (hl10 : 10 ∉ l) (hl0 : 0 ∉ l) :
    ∃ rd, Drained rd ∧
      step B w (.read t (.data (l ++ [10]))) = (command B t l w).map (fun p => p.2.setReader t rd) := by
  let rd₀ := (w.conn t).rd
  let rd₁ : Reader := { rd₀ with b := (rd₀.b.bufferSpace 1).fill (l ++ [10]) }
  obtain ⟨hw₁, hc₁, -⟩ := Buffer.bufferSpace_spec hi.wf 1
  obtain ⟨hw₂, hc₂⟩ := Buffer.fill_spec hw₁ (l ++ [10])
  rw [hc₁, hi.empty, List.nil_append] at hc₂
  have hlen : l.length + 1 ≤ rd₁.b.content.length := by simp [rd₁, hc₂]
  obtain ⟨hw₃, hc₃⟩ := Buffer.consume_spec hw₂ hlen
  have hrd : ((rd₁.consume (l.length + 1)).fd && (rd₁.consume (l.length + 1)).enabled) = true := hi.reading
  refine ⟨rd₁.consume (l.length + 1), ⟨hrd, hw₃, ?_⟩, ?_⟩
  · show (rd₁.b.consume (l.length + 1)).content = []
    rw [hc₃]; simp [rd₁, hc₂]
  have hloop : readerLoop B t (lineReader B t) false [] rd₁.b.content w rd₁ =
      match command B t l w with
      | .error e => (.error e, rd₁.consume (l.length + 1))
      | .ok (_, w') => (.ok w', rd₁.consume (l.length + 1)) := by
    show readerLoop B t (lineReader B t) false [] ((rd₀.b.bufferSpace 1).fill (l ++ [10])).content w rd₁ = _
    rw [hc₂, readerLoop_line B t _ hl10, cString_of_nonul hl0]
    simp only [lineReader, hi.lineReader]
    rcases command B t l w with e | ⟨n, w'⟩
    · rfl
    · by_cases hn : n = 0 <;> simp [hn, readerLoop]
  simp only [step, hi.reading, Bool.not_true, Bool.false_eq_true, if_false, Reader.readable,
    redirectReaderCallback, hi.reader, readerCallback]
  rw [hloop]
  rcases command B t l w with e | ⟨n, w'⟩ <;> rfl

/-- End of file on an idle connection: `reader_callback` tears the connection down. -/
theorem step_read_eof (hi : Idle w t) :
    ∃ rd, step B w (.read t .eof) = .ok ((readerEof B t w).setReader t rd) := by
  obtain ⟨-, hc₁, -⟩ := Buffer.bufferSpace_spec hi.wf 1
  let rd₀ := (w.conn t).rd
  let rd : Reader :=
    { rd₀ with b := rd₀.b.bufferSpace 1, enabled := false, timeouts := rd₀.timeouts ++ [.shutdown] }
  refine ⟨rd, ?_⟩
  simp only [step, hi.reading, Bool.not_true, if_false, Reader.readable, redirectReaderCallback, hi.reader,
    readerCallback]
  rw [show ((w.conn t).rd.b.bufferSpace 1).content = [] from hc₁.trans hi.empty]
  rfl

end Step

/-- A client of `Backend.plain` on the local socket, logged in as `alice`, waiting for a command. -/
def aliceIdle (config : Config) : World Unit :=
  { World.start () config none 0 false with
    conns := [{ newConn ⟨"socket", .unix, false⟩ (some "local") [] with
      who := some "alice", rights := rightRead ||| rightLocal }],
    connections := [0] }

theorem aliceIdle_idle (config : Config) : Idle (aliceIdle config) 0 :=
  ⟨Nat.one_pos, rfl, rfl, rfl, rfl, ⟨le_rfl, le_rfl⟩, rfl, rfl, rfl⟩

/-! ### Commands that the runs below use -/

section Commands

variable {w : World σ} {t}

theorem command_stats (hread : (w.conn t).rights &&& rightRead ≠ 0)
    (hcanon : B.utf8ComposeCanon (utf8 "stats") = some "stats") (hsplit : B.split "stats" = .ok ["stats"]) :
    command B t (utf8 "stats") w =
      .ok (0, { w with db := B.trackdbStatsSubprocess w.db, pending := w.pending ++ [.gotStats t] }) :=
  command_eq_handler B t hcanon hsplit (tableFind_stats B) (.inr hread) le_rfl le_rfl

theorem command_nop (hcanon : B.utf8ComposeCanon (utf8 "nop") = some "nop") (hsplit : B.split "nop" = .ok ["nop"]) :
    command B t (utf8 "nop") w = w.reply t "250 Quack\n" :=
  command_eq_handler B t hcanon hsplit (tableFind_nop B) (.inl rfl) le_rfl le_rfl

end Commands

/-! ### Replies and completions on an idle connection -/

section Live

variable {w : World σ} {t}

/-- An idle connection takes a reply, which is added to its transcript. -/
theorem Idle.reply_ok (hi : Idle w t) (s : String) :
    ∃ w', w.reply t s = .ok (1, w') ∧ Idle w' t ∧ (w'.conn t).out = (w.conn t).out ++ [s] ∧
      w'.pending = w.pending := by
  obtain ⟨wr, -, h⟩ := World.write_live (s := s) hi.hasWriter hi.writerOpen
  have hr : w.reply t s = .ok (1, w.setConn t { w.conn t with wr := wr, out := (w.conn t).out ++ [s] }) := by
    simp only [World.reply, h]; rfl
  exact ⟨_, hr, hi.reply hr, by rw [World.conn_setConn_self hi.lt], rfl⟩

theorem setReader_out {rd : Reader} (ht : t < w.conns.length) :
    ((w.setReader t rd).conn t).out = (w.conn t).out := by
  simp [World.setReader, ht]

/-- `got_stats` on an idle connection sends the statistics. -/
theorem Idle.gotStats_ok (hi : Idle w t) (stats : String) :
    ∃ w', gotStats t stats w = .ok w' ∧ (w'.conn t).out = (w.conn t).out ++ ["253 stats\n" ++ stats ++ "\n.\n"] := by
  obtain ⟨wr, -, h⟩ := World.write_live (s := "253 stats\n" ++ stats ++ "\n.\n") hi.hasWriter hi.writerOpen
  set w₁ := w.setConn t { w.conn t with wr := wr, out := (w.conn t).out ++ ["253 stats\n" ++ stats ++ "\n.\n"] }
  have hc : w₁.conn t = _ := World.conn_setConn_self hi.lt
  refine ⟨w₁.modifyConn t (fun c => { c with rd := c.rd.enable }), ?_, ?_⟩
  · rw [gotStats, h]
    show readerEnable t w₁ = _
    rw [readerEnable, if_neg (by rw [hc]; simpa using hi.hasReader)]
  · rw [World.modifyConn_eq, World.conn_setConn_self (by simpa [w₁] using hi.lt), hc]

/-- A completion for a connection whose writer is gone is fatal. -/
theorem gotStats_null (hw : (w.conn t).w = false) (stats : String) :
    gotStats t stats w = .error (.fatal "ev_write_sink called with null writer") := by
  simp only [gotStats, World.write_null hw]
  rfl

/-- The reactor runs a pending `got_stats` on the world without it. -/
theorem step_gotStats {i : Nat} (hp : w.pending.get? i = some (.gotStats t)) (stats : String) :
    step B w (.gotStats i stats) = gotStats t stats { w with pending := w.pending.eraseIdx i } := by
  simp only [step, hp]

/-- A pending `got_stats` for an idle connection sends the statistics. -/
theorem Idle.step_gotStats_ok {i : Nat} (hi : Idle w t) (hp : w.pending.get? i = some (.gotStats t))
    (stats : String) :
    ∃ w', step B w (.gotStats i stats) = .ok w' ∧
      (w'.conn t).out = (w.conn t).out ++ ["253 stats\n" ++ stats ++ "\n.\n"] := by
  have hi' : Idle { w with pending := w.pending.eraseIdx i } t := hi.of_conns rfl
  obtain ⟨w', h, ho⟩ := hi'.gotStats_ok stats
  exact ⟨w', (step_gotStats B hp stats).trans h, ho⟩

/-- A pending `got_stats` for a connection whose writer is gone is fatal. -/
theorem step_gotStats_null {i : Nat} (hp : w.pending.get? i = some (.gotStats t)) (hw : (w.conn t).w = false)
    (stats : String) :
    step B w (.gotStats i stats) = .error (.fatal "ev_write_sink called with null writer") :=
  (step_gotStats B hp stats).trans (gotStats_null (w := { w with pending := w.pending.eraseIdx i }) hw stats)

end Live

/-! ### A command pipelined behind a suspended one -/

section Pipelined

variable {w : World σ} {t}

/-- `nop` sent right behind `stats` is answered first: `stats` returns 0, `reader_callback` goes on
reading, and `nop` is dispatched and answered before the statistics subprocess completes. -/
theorem pipelined_reply_overtakes_stats (hi : Idle w t) (hread : (w.conn t).rights &&& rightRead ≠ 0)
    (hstats : B.utf8ComposeCanon (utf8 "stats") = some "stats") (hsplit : B.split "stats" = .ok ["stats"])
    (hnop : B.utf8ComposeCanon (utf8 "nop") = some "nop") (hsplit' : B.split "nop" = .ok ["nop"])
    (stats : String) :
    ∃ w', run B w [.read t (.data (utf8 "stats\n")), .read t (.data (utf8 "nop\n")),
        .gotStats w.pending.length stats] = .ok w' ∧
      (w'.conn t).out = (w.conn t).out ++ ["250 Quack\n", "253 stats\n" ++ stats ++ "\n.\n"] := by
  obtain ⟨rd₁, hd₁, h₁⟩ := step_read_line B (l := utf8 "stats") hi (by decide) (by decide)
  rw [command_stats B hread hstats hsplit] at h₁
  set w₀ : World σ := { w with db := B.trackdbStatsSubprocess w.db, pending := w.pending ++ [.gotStats t] }
  set w₁ := w₀.setReader t rd₁
  have hi₁ : Idle w₁ t := Idle.setReader (Idle.of_conns hi rfl) hd₁
  obtain ⟨rd₂, hd₂, h₂⟩ := step_read_line B (l := utf8 "nop") hi₁ (by decide) (by decide)
  obtain ⟨w₂, hr₂, hi₂, ho₂, hp₂⟩ := hi₁.reply_ok "250 Quack\n"
  rw [command_nop B hnop hsplit', hr₂] at h₂
  have hp : (w₂.setReader t rd₂).pending.get? w.pending.length = some (.gotStats t) := by
    rw [World.setReader_pending, hp₂]
    simp [w₁, w₀]
  obtain ⟨w₃, h₃, ho₃⟩ := (hi₂.setReader hd₂).step_gotStats_ok B hp stats
  refine ⟨w₃, ?_, ?_⟩
  · rw [show utf8 "stats\n" = utf8 "stats" ++ [10] from rfl, show utf8 "nop\n" = utf8 "nop" ++ [10] from rfl]
    simp only [run, h₁, h₂, Except.map, Except.bind, h₃]
  · rw [ho₃, setReader_out hi₂.lt, ho₂, setReader_out (w := w₀) hi.lt, List.append_assoc]
    rfl

/-- `stats` and then `nop` from `alice`: the transcript is the `nop` reply, then the statistics. -/
theorem pipelined_reply_overtakes_stats_alice :
    Idle (aliceIdle Config.plain) 0 ∧ ((aliceIdle Config.plain).conn 0).rights &&& rightRead ≠ 0 ∧
      ∃ w', run Backend.plain (aliceIdle Config.plain) [.read 0 (.data (utf8 "stats\n")),
          .read 0 (.data (utf8 "nop\n")), .gotStats (aliceIdle Config.plain).pending.length "tracks 0"] = .ok w' ∧
        (w'.conn 0).out = ((aliceIdle Config.plain).conn 0).out ++ ["250 Quack\n", "253 stats\ntracks 0\n.\n"] :=
  ⟨aliceIdle_idle _, by decide,
    pipelined_reply_overtakes_stats Backend.plain (aliceIdle_idle _) (by decide) rfl rfl rfl rfl "tracks 0"⟩

end Pipelined

/-! ### A completion after the connection is gone -/

section Teardown

variable {w : World σ} {t}

theorem readerEof_length : (readerEof B t w).conns.length = w.conns.length := by
  simp only [readerEof, removeConnection_length]
  split_ifs <;> simp

theorem setReader_w {rd : Reader} (ht : t < w.conns.length) : ((w.setReader t rd).conn t).w = (w.conn t).w := by
  simp [World.setReader, ht]

/-- A client that sends `stats` and closes its end before the statistics subprocess is done: at end
of file `reader_callback` forgets the writer, and `got_stats`, which still runs, hands the null
writer to `ev_writer_sink`, which is fatal. -/
theorem completion_after_eof_is_fatal (hi : Idle w t) (hread : (w.conn t).rights &&& rightRead ≠ 0)
    (hstats : B.utf8ComposeCanon (utf8 "stats") = some "stats") (hsplit : B.split "stats" = .ok ["stats"])
    (stats : String) :
    run B w [.read t (.data (utf8 "stats\n")), .read t .eof, .gotStats w.pending.length stats] =
      .error (.fatal "ev_write_sink called with null writer") := by
  obtain ⟨rd₁, hd₁, h₁⟩ := step_read_line B (l := utf8 "stats") hi (by decide) (by decide)
  rw [command_stats B hread hstats hsplit] at h₁
  set w₀ : World σ := { w with db := B.trackdbStatsSubprocess w.db, pending := w.pending ++ [.gotStats t] }
  set w₁ := w₀.setReader t rd₁
  have hi₁ : Idle w₁ t := Idle.setReader (Idle.of_conns hi rfl) hd₁
  obtain ⟨rd₂, h₂⟩ := step_read_eof B hi₁
  have hp : ((readerEof B t w₁).setReader t rd₂).pending.get? w.pending.length = some (.gotStats t) := by
    rw [World.setReader_pending, readerEof_pending]
    simp [w₁, w₀]
  have hw : (((readerEof B t w₁).setReader t rd₂).conn t).w = false := by
    rw [setReader_w (by rw [readerEof_length]; exact hi₁.lt)]
    exact readerEof_conn_w B t hi₁.lt
  rw [show utf8 "stats\n" = utf8 "stats" ++ [10] from rfl]
  simp only [run, h₁, h₂, Except.map, Except.bind, step_gotStats_null B hp hw]

/-- `alice` sends `stats` and hangs up before the statistics arrive. -/
theorem completion_after_eof_is_fatal_alice :
    Idle (aliceIdle Config.plain) 0 ∧ ((aliceIdle Config.plain).conn 0).rights &&& rightRead ≠ 0 ∧
      run Backend.plain (aliceIdle Config.plain) [.read 0 (.data (utf8 "stats\n")), .read 0 .eof,
          .gotStats (aliceIdle Config.plain).pending.length "tracks 0"] =
        .error (.fatal "ev_write_sink called with null writer") :=
  ⟨aliceIdle_idle _, by decide,
    completion_after_eof_is_fatal Backend.plain (aliceIdle_idle _) (by decide) rfl rfl "tracks 0"⟩

end Teardown

/-! ### Two status lines for one command -/

section Hls

variable {w : World σ} {t}

/-- A write on a live connection keeps it live, and adds to its transcript. -/
theorem write_keeps_live {s : String} (ht : t < w.conns.length) (hw : (w.conn t).w) (hfd : (w.conn t).wr.fd) :
    ∃ w', w.write t s = .ok w' ∧ w'.conns.length = w.conns.length ∧ (w'.conn t).w ∧ (w'.conn t).wr.fd ∧
      (w'.conn t).out = (w.conn t).out ++ [s] ∧ w'.db = w.db ∧ w'.config = w.config := by
  obtain ⟨wr, hfd', h⟩ := World.write_live (s := s) hw hfd
  have hc := World.conn_setConn_self (c := { w.conn t with wr := wr, out := (w.conn t).out ++ [s] }) ht
  exact ⟨_, h, by simp, by rw [hc]; exact hw, by rw [hc]; exact hfd', by rw [hc], rfl, rfl⟩

/-- With HLS off, `c_playing_hls` writes `550 HLS not enabled` and then goes on to its answer, so
one `playing-hls` gets two status lines. -/
theorem playing_hls_replies_twice (hcanon : B.utf8ComposeCanon (utf8 "playing-hls") = some "playing-hls")
    (hsplit : B.split "playing-hls" = .ok ["playing-hls"]) (hread : (w.conn t).rights &&& rightRead ≠ 0)
    (ht : t < w.conns.length) (hw : (w.conn t).w) (hfd : (w.conn t).wr.fd)
    (hoff : w.config.hlsEnable = false) (hbase : w.config.hlsBaseurl.isSome) :
    ∃ w' s, command B t (utf8 "playing-hls") w = .ok (1, w') ∧
      (w'.conn t).out = (w.conn t).out ++ ["550 HLS not enabled\n", s] ∧
      (s = "259 nothing playing\n" ∨ ∃ rest, s = "252 " ++ rest) := by
  rw [command_eq_handler B t hcanon hsplit (tableFind_playingHls B) (.inr hread) le_rfl le_rfl]
  obtain ⟨w₁, h₁, hl₁, hw₁, hfd₁, ho₁, hdb₁, hcf₁⟩ := write_keeps_live (s := "550 HLS not enabled\n") ht hw hfd
  have hreply : ∀ s, ∃ w', w₁.reply t s = .ok (1, w') ∧
      (w'.conn t).out = (w.conn t).out ++ ["550 HLS not enabled\n", s] := by
    intro s
    obtain ⟨w', h', -, -, -, ho', -, -⟩ := write_keeps_live (s := s) (hl₁ ▸ ht) hw₁ hfd₁
    exact ⟨w', by simp only [World.reply, h']; rfl, by rw [ho', ho₁, List.append_assoc]; rfl⟩
  obtain ⟨base, hb⟩ := Option.isSome_iff_exists.mp hbase
  simp only [cPlayingHls, hoff, Bool.not_false, true_or, if_true, h₁, bind, Except.bind, hdb₁, hcf₁]
  obtain ⟨w₂, h₂, ho₂⟩ := hreply "259 nothing playing\n"
  rcases B.playing w.db with _ | p
  · exact ⟨w₂, _, h₂, ho₂, .inl rfl⟩
  dsimp only
  rcases B.trackRootless p.track with _ | bare
  · exact ⟨w₂, _, h₂, ho₂, .inl rfl⟩
  dsimp only
  rw [hb]
  obtain ⟨w', h', ho'⟩ := hreply ("252 " ++ toString p.played ++ " " ++ base ++ B.urlencodestring bare ++ "\n")
  exact ⟨w', _, h', ho', .inr ⟨toString p.played ++ " " ++ base ++ B.urlencodestring bare ++ "\n",
    by simp only [String.append_assoc]⟩⟩

/-- `playing-hls` from `alice` with a base URL configured and HLS off, nothing playing. -/
theorem playing_hls_replies_twice_alice :
    let w := aliceIdle { Config.plain with hlsBaseurl := some "hls/" }
    (w.conn 0).rights &&& rightRead ≠ 0 ∧ 0 < w.conns.length ∧ (w.conn 0).w ∧ (w.conn 0).wr.fd ∧
      w.config.hlsEnable = false ∧ w.config.hlsBaseurl.isSome ∧
      ∃ w' s, command Backend.plain 0 (utf8 "playing-hls") w = .ok (1, w') ∧
        (w'.conn 0).out = (w.conn 0).out ++ ["550 HLS not enabled\n", s] ∧
        (s = "259 nothing playing\n" ∨ ∃ rest, s = "252 " ++ rest) :=
  ⟨by decide, by decide, rfl, rfl, rfl, rfl,
    playing_hls_replies_twice Backend.plain rfl rfl (by decide) (by decide) rfl rfl rfl rfl⟩

end Hls

end Disorder.Server

import Disorder.Server.Command

/-! A connection's life in server.c, and the server as a state machine driven by its event loop.
`listen_callback` accepts a connection and greets it; `reader_callback` takes each complete line of
what the connection's reader has buffered to the connection's line reader, stops at a line whose
handler has not completed, and at end of file forgets the reader and the writer and removes the
connection; `reader_error` and `writer_error` tear a connection down when its reader or writer
fails or is shut down. A suspended command (stats, rescan with wait, reminder) is finished later by
`got_stats`, `finished_rescan`, `start_fresh_rescan` or `sent_reminder`, which write the reply and
re-enable the connection's reader.

The event loop is the relation between a world and an `Event`: a readable or writable descriptor
(with what `read` or `write` returned), a zero-delay timeout, an expired time bound, a new
connection, or a collaborator finishing. Which event comes next is free: any interleaving the
kernel and the subprocesses can produce is a list of events. -/

namespace Disorder.Server

open Disorder.Event

variable {σ : Type} (B : Backend σ) (t : Nat)

/-- The C string at the start of a line: its bytes up to the first NUL. -/
def cString (l : List UInt8) : List UInt8 := l.takeWhile (· ≠ 0)

/-- `remove_connection`: cancel the connection's RTP request and unlink it from `connections`. -/
def removeConnection (w : World σ) : World σ :=
  let c := w.conn t
  let w := if c.rtpRequested then
      { w with db := B.rtpRequestCancel w.db c.rtpDestination }.modifyConn t
        (fun c => { c with rtpRequested := false })
    else w
  { w with connections := w.connections.erase t }

/-- The end of `reader_callback` and of `logging_reader_callback` at end of file: forget the
reader, close and forget the writer, remove the connection. -/
def readerEof (w : World σ) : World σ :=
  let w := w.modifyConn t (fun c => { c with r := false })
  let w := if (w.conn t).w then w.modifyConn t (fun c => { c with wr := c.wr.close, w := false }) else w
  removeConnection B t w

section Teardown

variable {w : World σ}

theorem removeConnection_pending : (removeConnection B t w).pending = w.pending := by
  unfold removeConnection; dsimp only; split_ifs <;> rfl

theorem removeConnection_conns :
    (removeConnection B t w).conns =
      if (w.conn t).rtpRequested then (w.modifyConn t (fun c => { c with rtpRequested := false })).conns
      else w.conns := by
  unfold removeConnection; dsimp only; split_ifs <;> rfl

theorem removeConnection_length : (removeConnection B t w).conns.length = w.conns.length := by
  rw [removeConnection_conns]; split_ifs <;> simp

/-- Removing a connection only cancels its RTP request. -/
theorem conn_removeConnection (d : Nat) :
    ∃ b, (removeConnection B t w).conn d = { w.conn d with rtpRequested := b } := by
  have h : (removeConnection B t w).conn d = (if (w.conn t).rtpRequested then
      w.modifyConn t (fun c => { c with rtpRequested := false }) else w).conn d := by
    simp only [World.conn, removeConnection_conns]; split_ifs <;> rfl
  rw [h]
  split_ifs
  · by_cases hd : d = t
    · subst hd
      rcases lt_or_le d w.conns.length with hl | hl
      · exact ⟨false, World.conn_modifyConn_self hl _⟩
      · exact ⟨(w.conn d).rtpRequested, by rw [World.modifyConn_eq, World.setConn_of_le hl]⟩
    · exact ⟨_, World.conn_setConn_ne hd⟩
  · exact ⟨(w.conn d).rtpRequested, rfl⟩

theorem readerEof_pending : (readerEof B t w).pending = w.pending := by
  unfold readerEof; dsimp only; split_ifs <;> simp [removeConnection_pending, World.modifyConn_eq]

/-- At end of file the connection loses its writer. -/
theorem readerEof_conn_w (ht : t < w.conns.length) : ((readerEof B t w).conn t).w = false := by
  unfold readerEof
  dsimp only
  obtain ⟨b, hb⟩ := conn_removeConnection B t (w := if ((w.modifyConn t fun c => { c with r := false }).conn t).w then
    (w.modifyConn t fun c => { c with r := false }).modifyConn t fun c => { c with wr := c.wr.close, w := false }
    else w.modifyConn t fun c => { c with r := false }) t
  rw [hb]
  split_ifs with h
  · simp [ht]
  · simpa [ht] using h

end Teardown

section Loop

variable (lr : List UInt8 → World σ → Except Halt (Int × World σ))

/-- The loop of `reader_callback` (server.c) over the buffered bytes, `acc` holding the current
line's bytes in reverse. At each newline the line is consumed and handed to the line reader `lr`;
a line whose handler has not completed ends the loop, asking for a continuation when bytes or end
of file remain. At the end of the bytes, end of file tears the connection down. -/
def readerLoop (eof : Bool) : List UInt8 → List UInt8 → World σ → Reader → Except Halt (World σ) × Reader
  | _, [], w, r => (.ok (if eof then readerEof B t w else w), r)
  | acc, b :: rest, w, r =>
    if b = 10 then
      let r := r.consume (acc.length + 1)
      match lr (cString acc.reverse) w with
      | .error e => (.error e, r)
      | .ok (complete, w) =>
        if complete = 0 then (.ok w, if rest ≠ [] ∨ eof then r.incomplete else r)
        else readerLoop eof [] rest w r
    else readerLoop eof (b :: acc) rest w r

/-- `reader_callback` (server.c), the event reader's callback for a connection on line reader
`lr`: the loop over everything buffered. -/
def readerCallback (u : Except Halt (World σ)) (r : Reader) (eof : Bool) :
    Except Halt (World σ) × Reader :=
  match u with
  | .error e => (.error e, r)
  | .ok w => readerLoop B t lr eof [] r.b.content w r

variable {eof : Bool} {w : World σ} {r : Reader}

/-- Bytes before a newline only go to the current line. -/
theorem readerLoop_append_noline {l : List UInt8} (hl : 10 ∉ l) (acc bs : List UInt8) :
    readerLoop B t lr eof acc (l ++ bs) w r = readerLoop B t lr eof (l.reverse ++ acc) bs w r := by
  induction l generalizing acc with
  | nil => rfl
  | cons b l ih =>
    have hb : b ≠ 10 := fun h => hl (h ▸ List.mem_cons_self _ _)
    rw [List.cons_append, readerLoop, if_neg hb, ih (fun h => hl (List.mem_cons_of_mem _ h))]
    simp

/-- A line and its newline: the line is consumed and handed to the line reader, and the loop goes
on after it if the line reader completed. -/
theorem readerLoop_line {l : List UInt8} (hl : 10 ∉ l) (rest : List UInt8) :
    readerLoop B t lr eof [] (l ++ 10 :: rest) w r =
      match lr (cString l) w with
      | .error e => (.error e, r.consume (l.length + 1))
      | .ok (complete, w') =>
        if complete = 0 then
          (.ok w', if rest ≠ [] ∨ eof then (r.consume (l.length + 1)).incomplete else r.consume (l.length + 1))
        else readerLoop B t lr eof [] rest w' (r.consume (l.length + 1)) := by
  rw [readerLoop_append_noline B t lr hl, List.append_nil, readerLoop, if_pos rfl, List.reverse_reverse,
    List.length_reverse]

/-- Bytes with no newline are left for later, or dropped at end of file. -/
theorem readerLoop_noline {l : List UInt8} (hl : 10 ∉ l) :
    readerLoop B t lr eof [] l w r = (.ok (if eof then readerEof B t w else w), r) := by
  simpa only [List.append_nil] using @readerLoop_append_noline σ B t lr eof w r l hl [] []

end Loop

/-- `logging_reader_callback`: what a log client sends is discarded. -/
def loggingReaderCallback (u : Except Halt (World σ)) (r : Reader) (eof : Bool) :
    Except Halt (World σ) × Reader :=
  match u with
  | .error e => (.error e, r)
  | .ok w => (.ok (if eof then readerEof B t w else w), r.consume r.b.content.length)

/-- `redirect_reader_callback`: the callback the connection is on. -/
def redirectReaderCallback (u : Except Halt (World σ)) (r : Reader) (eof : Bool) :
    Except Halt (World σ) × Reader :=
  match u with
  | .error e => (.error e, r)
  | .ok w =>
    match (w.conn t).reader with
    | .command => readerCallback B t (lineReader B t) (.ok w) r eof
    | .logging => loggingReaderCallback B t (.ok w) r eof

/-- `reader_error`: close the writer if there is one, forget both, remove the connection. -/
def readerError (u : Except Halt (World σ)) (_errno : Nat) : Except Halt (World σ) :=
  u.map fun w =>
    let w := if (w.conn t).w then w.modifyConn t (fun c => { c with wr := c.wr.close }) else w
    removeConnection B t (w.modifyConn t (fun c => { c with w := false, r := false }))

/-- `writer_error`: after a failure (not a finished writer) cancel the reader if there is one;
forget the writer and remove the connection. -/
def writerError (u : Except Halt (World σ)) (errno : Nat) : Except Halt (World σ) :=
  u.map fun w =>
    let w := if errno ≠ 0 ∧ (w.conn t).r then
        w.modifyConn t (fun c => { c with rd := c.rd.cancel, r := false })
      else w
    removeConnection B t (w.modifyConn t (fun c => { c with w := false }))

/-! ### Finishing a suspended command -/

/-- `ev_reader_enable(c->r)`; with no reader, `r->eof` is a NULL dereference. -/
def readerEnable (w : World σ) : Except Halt (World σ) :=
  if !(w.conn t).r then .error (.fatal "NULL dereference") else
  .ok (w.modifyConn t (fun c => { c with rd := c.rd.enable }))

/-- `got_stats`: the statistics, then the reader on again. -/
def gotStats (stats : String) (w : World σ) : Except Halt (World σ) := do
  let w ← w.write t ("253 stats\n" ++ stats ++ "\n.\n")
  readerEnable t w

/-- `finished_rescan`. -/
def finishedRescan (w : World σ) : Except Halt (World σ) := do
  let w ← w.write t "250 rescan completed\n"
  readerEnable t w

/-- `start_fresh_rescan`: piggyback on a rescan that is underway, or start one; wait for its end
if the connection asked to. -/
def startFreshRescan (w : World σ) : Except Halt (World σ) :=
  if B.trackdbRescanUnderway w.db then
    if (w.conn t).rescanWait then .ok { w with pending := w.pending ++ [.finishedRescan t] }
    else do
      let w ← w.write t "250 rescan initiated\n"
      readerEnable t w
  else if (w.conn t).rescanWait then
    .ok { w with db := B.trackdbRescan w.db, pending := w.pending ++ [.finishedRescan t] }
  else do
    let w ← { w with db := B.trackdbRescan w.db }.write t "250 rescan initiated\n"
    readerEnable t w

/-- `sent_reminder`, with the mail subprocess's wait status. -/
def sentReminder (status : Nat) (w : World σ) : Except Halt (World σ) := do
  let w ← w.write t (if status = 0 then "250 OK\n" else "550 Cannot send a reminder email\n")
  readerEnable t w

/-! ### The event log -/

/-- `!strncmp(msg, "user_", 5)`: a user-management message. -/
def isUserMessage (msg : String) : Bool := "user_".toList.isPrefixOf msg.toList

/-- `logclient`: the event log's callback for a connection `c_log` subscribed. A connection whose
reader or writer has gone is unsubscribed; a `user_*` message goes only to a connection with
`admin`, and over TCP only when remote user management is enabled; any other is written with the
time. -/
def logclient (msg : String) (d : Nat) (w : World σ) : Except Halt (World σ) :=
  let c := w.conn d
  if !c.w || !c.r then .ok (w.modifyConn d (fun c => { c with lo := false })) else
  if isUserMessage msg ∧ c.rights &&& rightAdmin = 0 then .ok w else
  if isUserMessage msg ∧ !w.config.remoteUserman ∧ c.rights &&& rightLocal = 0 then .ok w else
  w.write d (hexTime w.now ++ " " ++ msg ++ "\n")

/-- One log client's turn: a connection is subscribed while `c->lo` is set. -/
def fanoutStep (msg : String) (w : World σ) (d : Nat) : Except Halt (World σ) :=
  if (w.conn d).lo then logclient msg d w else .ok w

/-- Modelled from the spec: `eventlog` (lib/eventlog.c is missing) hands a message to each
subscribed log client in turn. -/
def eventlogFanout (msg : String) (w : World σ) : Except Halt (World σ) :=
  (List.range w.conns.length).foldlM (fanoutStep msg) w

/-! ### New connections -/

/-- Modelled from the spec: `hex` (lib/hex.c is missing), two lower-case hex digits a byte. -/
def hex (bs : List UInt8) : String :=
  String.join (bs.map (fun b => String.mk (if b.toNat < 16 then '0' :: Nat.toDigits 16 b.toNat
    else Nat.toDigits 16 b.toNat)))

/-- A connection fresh from `listen_callback` (its structure from `xmalloc`, which zeroes it): a
reader and a writer tied together, on `command`, with no login and no rights. -/
def newConn (l : Listener) (peer : Option String) (nonce : List UInt8) : Conn :=
  { peer, r := true, w := true, who := none, nonce, reader := .command, lo := false, l,
    cookie := none, rights := 0, rescanWait := false, lockedPlaylist := none, lockedWhen := 0,
    lineReader := .command, bodyU := "", body := [], rtpRequested := false, rtpDestination := [],
    rd := { Reader.new with tied := true }, wr := { Writer.new with tied := true }, out := [] }

/-- `listen_callback`: a new connection, whose tag is the next index, at the head of
`connections`, greeted with `231`, the protocol version, the authorization algorithm and a fresh
16-byte nonce. -/
def listenCallback (l : Listener) (peer : Option String) (w : World σ) : Except Halt (World σ) :=
  let t := w.conns.length
  let (nonce, db) := B.gcryRandomize w.db 16
  let w := { w with db := db, conns := w.conns ++ [newConn l peer nonce], connections := t :: w.connections }
  w.write t ("231 2 " ++ w.config.authorizationAlgorithm ++ " " ++ hex nonce ++ "\n")

/-! ### The event loop -/

/-- What the event loop can do next. -/
inductive Event where
  /-- A connection arrives on a listener, from `peer`. -/
  | accept (l : Listener) (peer : Option String)
  /-- Connection `t`'s reader descriptor is readable, and `read` returns `res`. -/
  | read (t : Nat) (res : ReadResult)
  /-- Connection `t`'s writer descriptor is writable, and `write` returns `res`. -/
  | write (t : Nat) (res : WriteResult)
  /-- The `i`-th pending timeout of connection `t`'s reader runs. -/
  | readerTimeout (t i : Nat)
  /-- The `i`-th pending timeout of connection `t`'s writer runs. -/
  | writerTimeout (t i : Nat)
  /-- Connection `t`'s writer's time bound expires. -/
  | timebound (t : Nat)
  /-- The stats subprocess of the `i`-th pending completion has printed `stats`. -/
  | gotStats (i : Nat) (stats : String)
  /-- The rescan the `i`-th pending completion waits for has finished. -/
  | rescanned (i : Nat)
  /-- The mail subprocess of the `i`-th pending completion has exited with `status`. -/
  | childExit (i : Nat) (status : Nat)
  /-- A collaborator raises an event-log message. -/
  | eventlog (msg : String)

/-- The reader and writer of connection `t` after one of their callbacks. -/
def World.setReader (w : World σ) (rd : Reader) : World σ := w.modifyConn t (fun c => { c with rd := rd })
def World.setWriter (w : World σ) (wr : Writer) : World σ := w.modifyConn t (fun c => { c with wr := wr })

@[simp] theorem World.setReader_pending (w : World σ) (rd : Reader) : (w.setReader t rd).pending = w.pending := rfl

/-- One event. A descriptor event needs its descriptor enabled (and not yet cancelled), a timeout
needs to be pending; otherwise nothing happens. -/
def step (w : World σ) : Event → Except Halt (World σ)
  | .accept l peer => listenCallback B l peer w
  | .read t res =>
    let rd := (w.conn t).rd
    if !(rd.fd && rd.enabled) then .ok w else
    let (u, rd) := rd.readable (redirectReaderCallback B t) (readerError B t) (.ok w) res
    u.map (·.setReader t rd)
  | .write t res =>
    let wr := (w.conn t).wr
    if !(wr.fd && wr.enabled) then .ok w else
    let (u, wr) := wr.writable (writerError B t) (.ok w) res
    u.map (·.setWriter t wr)
  | .readerTimeout t i =>
    let (u, rd) := (w.conn t).rd.runTimeout (redirectReaderCallback B t) (readerError B t) (.ok w) i
    u.map (·.setReader t rd)
  | .writerTimeout t i =>
    let (u, wr) := (w.conn t).wr.runTimeout (writerError B t) (.ok w) i
    u.map (·.setWriter t wr)
  | .timebound t =>
    if !(w.conn t).wr.timeout then .ok w else
    let (u, wr) := (w.conn t).wr.timeboundExceeded (writerError B t) (.ok w)
    u.map (·.setWriter t wr)
  | .gotStats i stats =>
    match w.pending.get? i with
    | some (.gotStats t) => gotStats t stats { w with pending := w.pending.eraseIdx i }
    | _ => .ok w
  | .rescanned i =>
    match w.pending.get? i with
    | some (.finishedRescan t) => finishedRescan t { w with pending := w.pending.eraseIdx i }
    | some (.startFreshRescan t) => startFreshRescan B t { w with pending := w.pending.eraseIdx i }
    | _ => .ok w
  | .childExit i status =>
    match w.pending.get? i with
    | some (.sentReminder t _) => sentReminder t status { w with pending := w.pending.eraseIdx i }
    | _ => .ok w
  | .eventlog msg => eventlogFanout msg w

/-- A run of events, stopping at the first that halts the server. -/
def run : World σ → List Event → Except Halt (World σ)
  | w, [] => .ok w
  | w, e :: es => (step B w e).bind (run · es)

/-- A server that has just started: no connections and nothing outstanding. -/
def World.start (db : σ) (config : Config) (api : Option Uaudio) (now : Int) (wideopen : Bool) :
    World σ :=
  ⟨db, config, api, [], [], [], 0, 0, none, now, wideopen⟩

/-! ### A server to run -/

/-- Words separated by spaces, as `split` reads a line without quotes. -/
def words (s : String) : List String := ((s.toList.splitOn ' ').filter (· ≠ [])).map String.mk

/-- Collaborators to run the server with, over a state they leave as it is: one user `alice`
(password `pw`, rights `read`) whose confirmation string is `alice/key`, an empty track database,
queue and schedule, bytes read as Latin-1, words split at spaces, and an authorization hash that is
the password itself. Runs that need a collaborator with state replace some of its fields. -/
def Backend.over (σ : Type) : Backend σ where
  split s := .ok (words s)
  utf8ComposeCanon bs := some (String.mk (bs.map (fun b => Char.ofNat b.toNat)))
  parseRights s := s.map (fun _ => rightRead)
  rightsString _ := "read"
  rightRemovable _ _ _ := false
  rightMovable _ _ _ := false
  rightScratchable _ _ _ := false
  authhash _ password _ := some password
  verifyCookie _ _ := none
  makeCookie db _ := (none, db)
  revokeCookie db _ := db
  trackdbExists _ _ := false
  trackdbResolve _ _ := none
  trackdbGet _ _ _ := none
  trackdbSet db _ _ _ := (1, db)
  trackdbGetAll _ _ := []
  trackdbGetpart _ _ _ _ := ""
  tracknameTransform _ s _ := s
  trackdbSearch _ _ := []
  trackdbAlltags _ := []
  regexpCompile _ := .ok ()
  trackdbList _ _ _ _ := []
  cacheGet _ _ := none
  cachePut db _ _ := db
  trackdbNew _ _ := []
  trackdbGetGlobal _ _ := none
  trackdbSetGlobal db _ _ _ := (1, db)
  flagEnabled v := v = some "yes"
  trackdbGetuserinfo _ user :=
    if user = "alice" then some [("password", "pw"), ("rights", "read")] else none
  trackdbAdduser db _ _ _ _ _ := (1, db)
  trackdbDeluser db _ := (1, db)
  trackdbEdituserinfo db _ _ _ := (1, db)
  trackdbListusers _ := ["alice"]
  trackdbConfirm db user s := (if s = user ++ "/key" then some rightRead else none, db)
  trackdbPlaylistGet _ _ _ := (enoent, [], "")
  trackdbPlaylistSet db _ _ _ _ := (enoent, db)
  trackdbPlaylistList _ _ := []
  trackdbPlaylistDelete db _ _ := (enoent, db)
  trackdbRescanUnderway _ := false
  trackdbRescan db := db
  trackdbStatsSubprocess db := db
  queueHead _ := none
  queueEntries _ := []
  recentEntries _ := []
  playing _ := none
  paused _ := false
  queueFind _ _ := none
  queueAdd db _ _ _ _ _ := (none, db)
  queueRemove db _ _ := db
  queueMove db _ _ _ := (0, db)
  queueMoveafter db _ _ _ := db
  queueWrite db := db
  queueMarshall q := q.id
  queueFixSofar db := db
  updateEntry db _ := db
  prepare db _ := db
  abandon db _ := db
  addRandomTrack db := db
  play db := db
  scratch db _ _ := db
  pausePlaying db _ := (0, db)
  resumePlaying db _ := db
  enablePlaying db _ := db
  disablePlaying db _ := db
  enableRandom db _ := db
  disableRandom db _ := db
  playingIsEnabled _ := false
  randomIsEnabled _ := false
  eventlog db _ := db
  reconfigure db config := (0, config, db)
  scheduleList _ := []
  scheduleGet _ _ := none
  scheduleDel db _ := (1, db)
  scheduleAdd db _ := (none, db)
  getaddrinfo _ _ := none
  rtpRequest db _ := db
  rtpRequestCancel db _ := db
  getVolume _ := (0, 0)
  setVolume db l r := ((l, r), db)
  trackRootless s := some s
  urlencodestring s := s
  gcryRandomize db n := (List.replicate n 0, db)
  basen _ := (true, "0")
  emailValid _ := false
  mimeEncodeText _ := none
  quote822 s := s
  sendmailSubprocess db _ _ _ _ _ _ _ := (none, db)
  versionString := "plain"

/-- The same collaborators over no state. -/
def Backend.plain : Backend Unit := Backend.over Unit

/-- A configuration to run the server with: HLS off, remote user management off. -/
def Config.plain : Config :=
  ⟨"sha1", "read", none, 100, 600, false, "request", false, none, ("", "")⟩

end Disorder.Server

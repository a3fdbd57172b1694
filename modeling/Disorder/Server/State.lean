import Disorder.Event.Reader
import Disorder.Event.Writer
import Disorder.Hash.Table
import Disorder.Client.Simple

/-! The state of the server of server/server.c. Each connection (`struct conn`) carries its login,
rights, line reader, playlist lock and RTP request, and the event-loop reader and writer on its
socket; `out` records the text written to the writer's sink. The collaborators server.c calls but
whose source is not in the repository (the track and user database, the queue and play engine,
cookies, the schedule, RTP destinations, the mixer, and the helpers `split`, `utf8_compose_canon`,
`parse_rights` and the `right_*` checks) are the fields of a `Backend` over their own state `σ`;
the world holds that state, the configuration, every connection object and the `connections` list. -/

namespace Disorder.Server

open Event

/-! ### Rights -/

/-- Modelled from the spec: the bits of `rights_type` (lib/rights.h is missing). The spec lists
play, pause, scratch-mine/random/any, remove-mine/random/any, move-mine/random/any, volume, admin,
rescan, register, prefs, global-prefs, userinfo, read and the synthetic local bit, one bit each. -/
def rightPlay : Nat := 0x1
def rightPause : Nat := 0x2
def rightScratchMine : Nat := 0x4
def rightScratchRandom : Nat := 0x8
def rightScratchAny : Nat := 0x10
def rightRemoveMine : Nat := 0x20
def rightRemoveRandom : Nat := 0x40
def rightRemoveAny : Nat := 0x80
def rightMoveMine : Nat := 0x100
def rightMoveRandom : Nat := 0x200
def rightMoveAny : Nat := 0x400
def rightVolume : Nat := 0x800
def rightAdmin : Nat := 0x1000
def rightRescan : Nat := 0x2000
def rightRegister : Nat := 0x4000
def rightPrefs : Nat := 0x8000
def rightGlobalPrefs : Nat := 0x10000
def rightUserinfo : Nat := 0x20000
def rightRead : Nat := 0x40000
def rightLocal : Nat := 0x80000

/-- `RIGHT_SCRATCH__MASK`, `RIGHT_REMOVE__MASK` and `RIGHT_MOVE__MASK`. -/
def rightScratchMask : Nat := rightScratchMine ||| rightScratchRandom ||| rightScratchAny
def rightRemoveMask : Nat := rightRemoveMine ||| rightRemoveRandom ||| rightRemoveAny
def rightMoveMask : Nat := rightMoveMine ||| rightMoveRandom ||| rightMoveAny

/-! ### Data of the collaborators -/

/-- The protocol family of a listening socket. -/
inductive Pf where
  | unix
  | inet
  | inet6
  deriving DecidableEq, Repr, Inhabited

/-- A `struct listener`. -/
structure Listener where
  name : String
  pf : Pf
  privileged : Bool
  deriving DecidableEq, Repr, Inhabited

/-- How a queue entry came to be on the queue. -/
inductive Origin where
  | picked
  | random
  | adopted
  | scratch
  | scheduled
  deriving DecidableEq, Repr

/-- The fields of a `struct queue_entry` that server.c reads or writes. -/
structure QueueEntry where
  id : String
  track : String
  submitter : Option String
  origin : Origin
  played : Nat
  expected : Int
  sofar : Int
  deriving DecidableEq, Repr

/-- Where `queue_add` puts a new entry. -/
inductive Where where
  | beforeRandom
  | after
  deriving DecidableEq, Repr

/-- The configuration items server.c reads. `broadcast` is the configured RTP address as
`netaddress_format` prints it. -/
structure Config where
  authorizationAlgorithm : String
  defaultRights : String
  mailSender : Option String
  newMax : Int
  reminderInterval : Int
  remoteUserman : Bool
  rtpMode : String
  hlsEnable : Bool
  hlsBaseurl : Option String
  broadcast : String × String
  deriving DecidableEq, Repr

/-- The sound API in use (`api`): whether it is the RTP backend and whether it can set the volume. -/
structure Uaudio where
  isRtp : Bool
  hasSetVolume : Bool
  deriving DecidableEq, Repr

/-- `EACCES`, `EINVAL` and `ENOENT`, the errors the playlist calls report. -/
def eacces : Nat := 13
def einval : Nat := 22
def enoent : Nat := 2

/-- Text and network utilities: `split`, Unicode normalisation, regular expressions, URL and
mail encodings, name lookup and the version string. -/
structure Text where
  split : String → Except String (List String)
  utf8ComposeCanon : List UInt8 → Option String
  regexpCompile : String → Except String Unit
  tracknameTransform : String → String → String → String
  flagEnabled : Option String → Bool
  emailValid : String → Bool
  mimeEncodeText : String → Option (String × String × String)
  quote822 : String → String
  urlencodestring : String → String
  trackRootless : String → Option String
  getaddrinfo : String → String → Option (List UInt8)
  versionString : String

/-- Rights and authentication: parsing and printing rights, the queue-entry rights checks,
`authhash`, cookies and random nonces. -/
structure Auth (σ : Type) where
  parseRights : Option String → Option Nat
  rightsString : Nat → String
  rightRemovable : Nat → Option String → QueueEntry → Bool
  rightMovable : Nat → Option String → QueueEntry → Bool
  rightScratchable : Nat → Option String → QueueEntry → Bool
  authhash : List UInt8 → String → String → Option String
  verifyCookie : σ → String → Option (String × Nat)
  makeCookie : σ → Option String → Option String × σ
  revokeCookie : σ → String → σ
  gcryRandomize : σ → Nat → List UInt8 × σ
  basen : List UInt8 → Bool × String

/-- The track database: tracks, preferences, global preferences, the search cache, rescans and
statistics. -/
structure TrackDb (σ : Type) where
  trackdbExists : σ → String → Bool
  trackdbResolve : σ → String → Option String
  trackdbGet : σ → String → String → Option String
  trackdbSet : σ → String → String → Option String → Nat × σ
  trackdbGetAll : σ → String → List (String × String)
  trackdbGetpart : σ → String → String → String → String
  trackdbSearch : σ → List String → List String
  trackdbAlltags : σ → List String
  trackdbList : σ → Option String → Nat → Option String → List String
  cacheGet : σ → String → Option (List String)
  cachePut : σ → String → List String → σ
  trackdbNew : σ → Int → List String
  trackdbGetGlobal : σ → String → Option String
  trackdbSetGlobal : σ → String → Option String → Option String → Nat × σ
  trackdbRescanUnderway : σ → Bool
  trackdbRescan : σ → σ
  trackdbStatsSubprocess : σ → σ

/-- What the database keeps besides tracks: users, playlists and scheduled events. -/
structure UserDb (σ : Type) where
  trackdbGetuserinfo : σ → String → Option (List (String × String))
  trackdbAdduser : σ → String → String → String → Option String → Option String → Nat × σ
  trackdbDeluser : σ → String → Nat × σ
  trackdbEdituserinfo : σ → String → String → String → Nat × σ
  trackdbListusers : σ → List String
  trackdbConfirm : σ → String → String → Option Nat × σ
  trackdbPlaylistGet : σ → String → Option String → Nat × List String × String
  trackdbPlaylistSet : σ → String → Option String → Option (List (List UInt8)) → Option String →
    Nat × σ
  trackdbPlaylistList : σ → Option String → List String
  trackdbPlaylistDelete : σ → String → Option String → Nat × σ
  scheduleList : σ → List String
  scheduleGet : σ → String → Option (List (String × String))
  scheduleDel : σ → String → Nat × σ
  scheduleAdd : σ → List (String × Option String) → Option String × σ

/-- The queue and the recently played list. -/
structure QueueOps (σ : Type) where
  queueHead : σ → Option QueueEntry
  queueEntries : σ → List QueueEntry
  recentEntries : σ → List QueueEntry
  playing : σ → Option QueueEntry
  paused : σ → Bool
  queueFind : σ → String → Option QueueEntry
  queueAdd : σ → String → Option String → Where → Option String → Origin → Option QueueEntry × σ
  queueRemove : σ → QueueEntry → Option String → σ
  queueMove : σ → QueueEntry → Int → Option String → Int × σ
  queueMoveafter : σ → Option QueueEntry → List QueueEntry → Option String → σ
  queueWrite : σ → σ
  queueMarshall : QueueEntry → String
  queueFixSofar : σ → σ
  updateEntry : σ → QueueEntry → σ

/-- Playing: the speaker, random play, the event log, reconfiguration, the mixer, RTP
recipients and mail. -/
structure Player (σ : Type) where
  prepare : σ → QueueEntry → σ
  abandon : σ → QueueEntry → σ
  addRandomTrack : σ → σ
  play : σ → σ
  scratch : σ → Option String → Option String → σ
  pausePlaying : σ → Option String → Int × σ
  resumePlaying : σ → Option String → σ
  enablePlaying : σ → Option String → σ
  disablePlaying : σ → Option String → σ
  enableRandom : σ → Option String → σ
  disableRandom : σ → Option String → σ
  playingIsEnabled : σ → Bool
  randomIsEnabled : σ → Bool
  eventlog : σ → List String → σ
  reconfigure : σ → Config → Nat × Config × σ
  getVolume : σ → Int × Int
  setVolume : σ → Int → Int → (Int × Int) × σ
  rtpRequest : σ → List UInt8 → σ
  rtpRequestCancel : σ → List UInt8 → σ
  sendmailSubprocess : σ → String → String → String → String → String → String → String →
    Option Nat × σ

/-- The collaborators, over their state `σ`. A call that changes state returns the new state with
its result; an `int` result is `0` for success. -/
structure Backend (σ : Type) extends Text, Auth σ, TrackDb σ, UserDb σ, QueueOps σ, Player σ

/-! ### Connections and the world -/

/-- The reader callback a connection is on: `reader_callback` for commands, or
`logging_reader_callback` once it runs `log`. -/
inductive ReaderKind where
  | command
  | logging
  deriving DecidableEq, Repr, Inhabited

/-- The line reader a connection is on: `command`, or `body_line` while a body is read. -/
inductive LineReader where
  | command
  | bodyLine
  deriving DecidableEq, Repr, Inhabited

/-- A `struct conn`. `r` and `w` say whether `c->r` and `c->w` are set; `rd` and `wr` are the
reader and writer objects themselves. `peer` is what `getpeername` (and, off a UNIX socket,
`getnameinfo`) gives, `none` if either fails. `bodyU` is the playlist name passed to `fetch_body`;
`out` is the text written to `ev_writer_sink(c->w)`, in order. -/
structure Conn where
  peer : Option String
  r : Bool
  w : Bool
  who : Option String
  nonce : List UInt8
  reader : ReaderKind
  lo : Bool
  l : Listener
  cookie : Option String
  rights : Nat
  rescanWait : Bool
  lockedPlaylist : Option String
  lockedWhen : Int
  lineReader : LineReader
  bodyU : String
  body : List (List UInt8)
  rtpRequested : Bool
  rtpDestination : List UInt8
  rd : Reader
  wr : Writer
  out : List String
  deriving DecidableEq, Repr, Inhabited

/-- A callback a collaborator will make later for a connection: `got_stats` after
`trackdb_stats_subprocess`, `finished_rescan` or `start_fresh_rescan` after a rescan, and
`sent_reminder` when the mail subprocess `pid` exits. -/
inductive Completion where
  | gotStats (t : Nat)
  | finishedRescan (t : Nat)
  | startFreshRescan (t : Nat)
  | sentReminder (t : Nat) (pid : Nat)
  deriving DecidableEq, Repr

/-- Why the server process stops: `disorder_fatal` (or a failed assertion), or `quit`. -/
inductive Halt where
  | fatal (msg : String)
  | quit
  deriving DecidableEq, Repr

/-- The server: the collaborators' state, the configuration and sound API, every connection object
(a connection's tag is its index), the `connections` list, the outstanding completions, the last
known volume, `c_reminder`'s rate-limit table, the clock and `wideopen`. -/
structure World (σ : Type) where
  db : σ
  config : Config
  api : Option Uaudio
  conns : List Conn
  connections : List Nat
  pending : List Completion
  volumeLeft : Int
  volumeRight : Int
  lastReminder : Option (HashTable.Hash Int)
  now : Int
  wideopen : Bool

/-- A C string's bytes, as the sink writes them. -/
def utf8 (s : String) : List UInt8 := s.toList.flatMap String.utf8EncodeChar

/-- `vec[i]` of a command's arguments, where `command` has checked that `i` is below the count. -/
def arg (vec : List String) (i : Nat) : String := vec.getD i ""

/-- `noyes[b]`. -/
def noyes (b : Bool) : String := if b then "yes" else "no"

/-- `kvp_get`: the value of the first pair with that name. -/
def kvpGet (k : List (String × String)) (name : String) : Option String :=
  (k.find? (fun p => p.1 = name)).map Prod.snd

/-- `atol` and `atoi`: optional blanks, an optional sign, then decimal digits up to the first other
character; 0 when there are none. -/
def atol (s : String) : Int :=
  let cs := s.toList.dropWhile (fun ch => ch = ' ' || ch = '\t' || ch = '\n')
  let (neg, cs) := match cs with
    | '-' :: rest => (true, rest)
    | '+' :: rest => (false, rest)
    | _ => (false, cs)
  let n : Nat := (cs.takeWhile Char.isDigit).foldl (fun n ch => 10 * n + (ch.toNat - '0'.toNat)) 0
  if neg then -n else n

/-- `"%" PRIxMAX` of a time cast to `uintmax_t`. -/
def hexTime (t : Int) : String := String.mk (Nat.toDigits 16 (t % 0x10000000000000000).toNat)

/-- One list element as `list_response` and `c_new` send it: an extra `.` in front of an element
that starts with `.`, then a newline. -/
def stuffed (s : String) : String := (if s.toList.head? = some '.' then "." else "") ++ s ++ "\n"

namespace World

variable {σ : Type}

/-- The connection object with tag `t`. -/
def conn (w : World σ) (t : Nat) : Conn := w.conns.getD t default

/-- Replace the connection object with tag `t`. -/
def setConn (w : World σ) (t : Nat) (c : Conn) : World σ := { w with conns := w.conns.set t c }

/-- Change some fields of the connection object with tag `t`. -/
def modifyConn (w : World σ) (t : Nat) (f : Conn → Conn) : World σ := w.setConn t (f (w.conn t))

/-- `sink_writes(ev_writer_sink(c->w), s)` on connection `t`: `ev_writer_sink` is fatal on a
null writer, and `ev_writer_write` may fail its assertion. -/
def write (w : World σ) (t : Nat) (s : String) : Except Halt (World σ) :=
  let c := w.conn t
  if !c.w then .error (.fatal "ev_write_sink called with null writer") else
  match c.wr.write (utf8 s) with
  | .error _ => .error (.fatal "assertion failed: fd >= 0")
  | .ok wr => .ok (w.setConn t { c with wr := wr, out := c.out ++ [s] })

/-- Write several pieces in order. -/
def writeAll (w : World σ) (t : Nat) : List String → Except Halt (World σ)
  | [] => .ok w
  | s :: ss => do let w ← w.write t s; w.writeAll t ss

/-- A one-line reply, after which the handler returns 1 (complete). -/
def reply (w : World σ) (t : Nat) (s : String) : Except Halt (Int × World σ) :=
  (w.write t s).map ((1 : Int), ·)

/-- `list_response`: `253 reply`, each element stuffed, then `.`. -/
def listResponse (w : World σ) (t : Nat) (reply : String) (list : List String) :
    Except Halt (Int × World σ) := do
  let w ← w.write t ("253 " ++ reply ++ "\n")
  let w ← w.writeAll t (list.map stuffed)
  let w ← w.write t ".\n"
  return (1, w)

/-! ### The connection table -/

variable {w : World σ} {t d : Nat} {c c' : Conn}

@[simp] theorem setConn_db : (w.setConn t c).db = w.db := rfl
@[simp] theorem setConn_config : (w.setConn t c).config = w.config := rfl
@[simp] theorem setConn_connections : (w.setConn t c).connections = w.connections := rfl
@[simp] theorem setConn_pending : (w.setConn t c).pending = w.pending := rfl
@[simp] theorem setConn_now : (w.setConn t c).now = w.now := rfl

@[simp] theorem setConn_length : (w.setConn t c).conns.length = w.conns.length :=
  List.length_set _ _ _

@[simp] theorem conn_setConn_self (h : t < w.conns.length) : (w.setConn t c).conn t = c := by
  simp [conn, setConn, List.getD_eq_getElem?_getD, h]

@[simp] theorem conn_setConn_ne (h : d ≠ t) : (w.setConn t c).conn d = w.conn d := by
  simp [conn, setConn, List.getD_eq_getElem?_getD, List.getElem?_set_ne (Ne.symm h)]

@[simp] theorem setConn_setConn : (w.setConn t c).setConn t c' = w.setConn t c' := by
  simp [setConn]

theorem modifyConn_eq (f : Conn → Conn) : w.modifyConn t f = w.setConn t (f (w.conn t)) := rfl

/-- A connection object is looked up in `conns` alone. -/
theorem conn_congr {w' : World σ} (h : w'.conns = w.conns) (d : Nat) : w'.conn d = w.conn d := by
  rw [conn, conn, h]

theorem setConn_of_le (h : w.conns.length ≤ t) : w.setConn t c = w := by
  simp [setConn, List.set_eq_of_length_le h]

@[simp] theorem setConn_conn_self : w.setConn t (w.conn t) = w := by
  rcases lt_or_le t w.conns.length with h | h
  · have hs : w.conns.set t (w.conn t) = w.conns := List.ext_getElem? fun j => by
      by_cases hj : t = j
      · subst hj; simp [conn, List.getD_eq_getElem?_getD, h]
      · simp [List.getElem?_set_ne hj]
    simp only [setConn, hs]
  · exact setConn_of_le h

@[simp] theorem modifyConn_length (f : Conn → Conn) : (w.modifyConn t f).conns.length = w.conns.length :=
  setConn_length

@[simp] theorem conn_modifyConn_self (h : t < w.conns.length) (f : Conn → Conn) :
    (w.modifyConn t f).conn t = f (w.conn t) := conn_setConn_self h

theorem modifyConn_modifyConn (h : t < w.conns.length) (f g : Conn → Conn) :
    (w.modifyConn t f).modifyConn t g = w.modifyConn t (g ∘ f) := by
  simp [modifyConn_eq, h]

/-- Changing one connection's writer and transcript: every connection keeps its other fields. -/
theorem conn_setConn_wr_out (wr : Event.Writer) (out : List String) (d : Nat) :
    ∃ wr' out', (w.setConn t { w.conn t with wr := wr, out := out }).conn d =
      { w.conn d with wr := wr', out := out' } := by
  by_cases hd : d = t
  · subst hd
    rcases lt_or_le d w.conns.length with hl | hl
    · exact ⟨wr, out, conn_setConn_self hl⟩
    · exact ⟨(w.conn d).wr, (w.conn d).out, by rw [setConn_of_le hl]⟩
  · exact ⟨(w.conn d).wr, (w.conn d).out, conn_setConn_ne hd⟩

/-! ### Writing to a connection -/

/-- A write to a live connection: the writer's write, and the text added to the transcript. -/
theorem write_eq {s : String} {wr : Writer} (hw : (w.conn t).w)
    (h : (w.conn t).wr.write (utf8 s) = .ok wr) :
    w.write t s = .ok (w.setConn t { w.conn t with wr := wr, out := (w.conn t).out ++ [s] }) := by
  simp [write, hw, h]

/-- `ev_writer_sink` of a connection whose writer is gone is fatal. -/
theorem write_null {s : String} (hw : (w.conn t).w = false) :
    w.write t s = .error (.fatal "ev_write_sink called with null writer") := by
  simp [write, hw]

/-- A write changes nothing but the connection's writer, whose descriptor it keeps, and its
transcript. -/
theorem write_frame {s : String} {w' : World σ} (h : w.write t s = .ok w') :
    ∃ wr : Event.Writer, wr.fd = (w.conn t).wr.fd ∧
      w' = w.setConn t { w.conn t with wr := wr, out := (w.conn t).out ++ [s] } := by
  unfold write at h
  dsimp only at h
  split_ifs at h
  split at h
  · cases h
  · rename_i wr hwr
    cases h; exact ⟨wr, Event.Writer.write_fd hwr, rfl⟩

/-- A one-line reply completes, and changes nothing but the writer and transcript. -/
theorem reply_frame {s : String} {n : Int} {w' : World σ} (h : w.reply t s = .ok (n, w')) :
    n = 1 ∧ ∃ wr : Event.Writer, wr.fd = (w.conn t).wr.fd ∧
      w' = w.setConn t { w.conn t with wr := wr, out := (w.conn t).out ++ [s] } := by
  unfold reply at h
  cases hw : w.write t s with
  | error e => simp [hw, Except.map] at h
  | ok w₁ =>
    simp only [hw, Except.map, Except.ok.injEq, Prod.mk.injEq] at h
    exact ⟨h.1.symm, h.2 ▸ write_frame hw⟩

/-- After a reply every connection has its fields but its writer and transcript as before. -/
theorem reply_conn {s : String} {n : Int} {w' : World σ} (h : w.reply t s = .ok (n, w')) (d : Nat) :
    ∃ wr out, w'.conn d = { w.conn d with wr := wr, out := out } := by
  obtain ⟨-, wr, -, rfl⟩ := reply_frame h
  exact conn_setConn_wr_out wr _ d

/-- A connection that still has its writer, and whose writer has not been shut down, takes a
write: only its writer and its transcript change, and it stays so. -/
theorem write_live {s : String} (hw : (w.conn t).w) (hfd : (w.conn t).wr.fd) :
    ∃ wr : Writer, wr.fd ∧ w.write t s =
      .ok (w.setConn t { w.conn t with wr := wr, out := (w.conn t).out ++ [s] }) := by
  obtain ⟨wr, h⟩ := (w.conn t).wr.write_ok hfd (utf8 s)
  exact ⟨wr, (Writer.write_fd h).trans hfd, write_eq hw h⟩

end World

end Disorder.Server

import Disorder.Server.Grows

/-! The command handlers of server.c that drive the queue and the player: play, playafter,
remove, move, moveafter, scratch, pause, resume, adopt, enable and disable (of play and of random
play), the queue, recent and playing listings, rescan, stats, volume, log and shutdown. Each takes
the command's arguments and returns its result (1 complete, 0 suspended) with the world after; the
queue and player themselves are the backend's. Every handler only grows the world (`Grows`): it
writes to its own connection, changes the database or a field of its connection object, and
nothing else. -/

namespace Disorder.Server

variable {σ : Type} (B : Backend σ) (t : Nat)

/-- `c_disable`. -/
def cDisable (vec : List String) (w : World σ) : Except Halt (Int × World σ) :=
  if vec.length = 0 ∨ (vec.length = 1 ∧ arg vec 0 = "now") then
    { w with db := B.disablePlaying w.db (w.conn t).who }.reply t "250 OK\n"
  else w.reply t "550 invalid argument\n"

/-- `c_enable`: enabling also unpauses when nothing is playing. -/
def cEnable (_vec : List String) (w : World σ) : Except Halt (Int × World σ) :=
  let who := (w.conn t).who
  let db := B.enablePlaying w.db who
  let db := if B.paused db ∧ (B.playing db).isNone then B.resumePlaying db who else db
  { w with db := db }.reply t "250 OK\n"

/-- `c_enabled`. -/
def cEnabled (_vec : List String) (w : World σ) : Except Halt (Int × World σ) :=
  w.reply t ("252 " ++ noyes (B.playingIsEnabled w.db) ++ "\n")

/-- What `c_play` and `c_playafter` do after adding: prepare the head of the queue, unpause if
nothing is playing, and `play`. -/
def afterAdd (db : σ) : σ :=
  let db := match B.queueHead db with
    | some q => B.prepare db q
    | none => db
  let db := if (B.playing db).isNone then B.resumePlaying db none else db
  B.play db

/-- `c_play`. -/
def cPlay (vec : List String) (w : World σ) : Except Halt (Int × World σ) :=
  if !B.trackdbExists w.db (arg vec 0) then w.reply t "550 track is not in database\n" else
  match B.trackdbResolve w.db (arg vec 0) with
  | none => w.reply t "550 cannot resolve track\n"
  | some track =>
    match B.queueAdd w.db track (w.conn t).who .beforeRandom none .picked with
    | (none, _) => .error (.fatal "NULL dereference")
    | (some q, db) => do
      let w ← { w with db := B.queueWrite db }.write t ("252 " ++ q.id ++ "\n")
      return (1, { w with db := afterAdd B w.db })

/-- The loop of `c_playafter` over the tracks: each is checked, resolved and added after the
previous one; a failure stops the loop with its reply, keeping the entries already added. -/
def playafterLoop (who : Option String) : String → List String → σ → σ × Option String
  | _, [], db => (db, none)
  | afterme, x :: xs, db =>
    if !B.trackdbExists db x then (db, some "550 track is not in database\n") else
    match B.trackdbResolve db x with
    | none => (db, some "550 cannot resolve track\n")
    | some track =>
      match B.queueAdd db track who .after (some afterme) .picked with
      | (none, db) => (db, some "550 No such ID\n")
      | (some q, db) => playafterLoop who q.id xs db

/-- `c_playafter`. -/
def cPlayafter (vec : List String) (w : World σ) : Except Halt (Int × World σ) :=
  match playafterLoop B (w.conn t).who (arg vec 0) (vec.drop 1) w.db with
  | (db, some err) => { w with db := db }.reply t err
  | (db, none) => do
    let w ← { w with db := B.queueWrite db }.write t "252 OK\n"
    return (1, { w with db := afterAdd B w.db })

/-- `c_remove`. -/
def cRemove (vec : List String) (w : World σ) : Except Halt (Int × World σ) :=
  let c := w.conn t
  match B.queueFind w.db (arg vec 0) with
  | none => w.reply t "550 no such track on the queue\n"
  | some q =>
    if !B.rightRemovable c.rights c.who q then
      w.reply t "510 Not authorized to remove that track\n"
    else
      let db := B.addRandomTrack (B.abandon (B.queueRemove w.db q c.who) q)
      let db := match B.queueHead db with
        | some h => B.prepare db h
        | none => db
      { w with db := B.queueWrite db }.reply t "250 removed\n"

/-- `c_scratch`. -/
def cScratch (vec : List String) (w : World σ) : Except Halt (Int × World σ) :=
  let c := w.conn t
  match B.playing w.db with
  | none => w.reply t "250 nothing is playing\n"
  | some p =>
    if !B.rightScratchable c.rights c.who p then
      w.reply t "510 Not authorized to scratch that track\n"
    else
      let db := B.scratch w.db c.who (if vec.length = 1 then some (arg vec 0) else none)
      { w with db := B.resumePlaying db none }.reply t "250 scratched\n"

/-- `c_pause`. -/
def cPause (_vec : List String) (w : World σ) : Except Halt (Int × World σ) :=
  if (B.playing w.db).isNone then w.reply t "250 nothing is playing\n" else
  if B.paused w.db then w.reply t "250 already paused\n" else
  match B.pausePlaying w.db (w.conn t).who with
  | (rc, db) =>
    if rc < 0 then { w with db := db }.reply t "550 cannot pause this track\n"
    else { w with db := db }.reply t "250 paused\n"

/-- `c_resume`. -/
def cResume (_vec : List String) (w : World σ) : Except Halt (Int × World σ) :=
  if !B.paused w.db then w.reply t "250 not paused\n" else
  { w with db := B.resumePlaying w.db (w.conn t).who }.reply t "250 paused\n"

/-- `c_shutdown`: the reply, then `quit`, which does not return. -/
def cShutdown (_vec : List String) (w : World σ) : Except Halt (Int × World σ) := do
  let _ ← w.write t "250 shutting down\n"
  throw .quit

/-- `c_reconfigure`. -/
def cReconfigure (_vec : List String) (w : World σ) : Except Halt (Int × World σ) :=
  match B.reconfigure w.db w.config with
  | (0, config, db) => { w with db := db, config := config }.reply t "250 installed new config\n"
  | (_, config, db) => { w with db := db, config := config }.reply t "550 error reading new config\n"

/-- `c_rescan`. Every argument must be `wait`; the `fresh` flag is compiled out, so it is always
false. With `wait` the handler suspends until the rescan's completion. -/
def cRescan (vec : List String) (w : World σ) : Except Halt (Int × World σ) :=
  if vec.any (fun a => a != "wait") then w.reply t "550 unknown flag\n" else
  let flagWait := !vec.isEmpty
  let flagFresh := false
  if B.trackdbRescanUnderway w.db then
    if flagFresh then
      let w := { w.modifyConn t (fun c => { c with rescanWait := flagWait }) with
        pending := w.pending ++ [.startFreshRescan t] }
      if flagWait then .ok (0, w) else w.reply t "250 rescan queued\n"
    else if flagWait then .ok (0, { w with pending := w.pending ++ [.finishedRescan t] })
    else w.reply t "250 rescan already underway\n"
  else if flagWait then
    .ok (0, { w with db := B.trackdbRescan w.db, pending := w.pending ++ [.finishedRescan t] })
  else { w with db := B.trackdbRescan w.db }.reply t "250 rescan initiated\n"

/-- `c_version`. -/
def cVersion (_vec : List String) (w : World σ) : Except Halt (Int × World σ) :=
  w.reply t ("251 " ++ B.versionString ++ "\n")

/-- `c_playing`: the playing entry, its `sofar` brought up to date and its `expected` cleared. -/
def cPlaying (_vec : List String) (w : World σ) : Except Halt (Int × World σ) :=
  match B.playing w.db with
  | none => w.reply t "259 nothing playing\n"
  | some _ =>
    let db := B.queueFixSofar w.db
    match B.playing db with
    | none => { w with db := db }.reply t "259 nothing playing\n"
    | some p =>
      let p := { p with expected := 0 }
      { w with db := B.updateEntry db p }.reply t ("252 " ++ B.queueMarshall p ++ "\n")

/-- `c_playing_hls`. When HLS is off it writes `550 HLS not enabled` and goes on to the playing
reply as well. `byte_asprintf` of a NULL base URL is a NULL dereference. -/
def cPlayingHls (_vec : List String) (w : World σ) : Except Halt (Int × World σ) := do
  let w ← (if !w.config.hlsEnable ∨ w.config.hlsBaseurl.isNone then
      w.write t "550 HLS not enabled\n" else pure w)
  match B.playing w.db with
  | none => w.reply t "259 nothing playing\n"
  | some p =>
    match B.trackRootless p.track with
    | none => w.reply t "259 nothing playing\n"
    | some bare =>
      match w.config.hlsBaseurl with
      | none => throw (.fatal "NULL dereference")
      | some base =>
        w.reply t ("252 " ++ toString p.played ++ " " ++ base ++ B.urlencodestring bare ++ "\n")

/-- `c_recent`. -/
def cRecent (_vec : List String) (w : World σ) : Except Halt (Int × World σ) := do
  let w ← w.write t "253 Tracks follow\n"
  let w ← w.writeAll t ((B.recentEntries w.db).map (fun q => " " ++ B.queueMarshall q ++ "\n"))
  w.reply t ".\n"

/-- The expected start after a track: `when` plus its `_length`, or 0 when `when` is 0 or the
length is missing or zero. -/
def nextWhen (db : σ) (track : String) (whenT : Int) : Int :=
  if whenT = 0 then 0 else
  match B.trackdbGet db track "_length" with
  | some l => if atol l ≠ 0 then whenT + atol l else 0
  | none => 0

/-- The loop of `c_queue`: each entry gets its expected start time and is listed. -/
def queueLoop : Int → List QueueEntry → World σ → Except Halt (World σ)
  | _, [], w => .ok w
  | whenT, q :: qs, w => do
    let q := { q with expected := whenT }
    let w ← { w with db := B.updateEntry w.db q }.write t (" " ++ B.queueMarshall q ++ "\n")
    queueLoop (nextWhen B w.db q.track whenT) qs w

/-- `c_queue`: the queue with expected start times, counted from now when play is enabled and not
paused. -/
def cQueue (_vec : List String) (w : World σ) : Except Halt (Int × World σ) := do
  let w ← w.write t "253 Tracks follow\n"
  let (whenT, db) : Int × σ :=
    if B.playingIsEnabled w.db ∧ !B.paused w.db then
      match B.playing w.db with
      | some _ =>
        let db := B.queueFixSofar w.db
        match B.playing db with
        | some p =>
          match B.trackdbGet db p.track "_length" with
          | some l => if atol l ≠ 0 then (w.now + (atol l - p.sofar), db) else (0, db)
          | none => (0, db)
        | none => (0, db)
      | none => (w.now, w.db)
    else (0, w.db)
  let w ← queueLoop B t whenT (B.queueEntries db) { w with db := db }
  w.reply t ".\n"

/-- `c_random_enable`: enabling also unpauses when nothing is playing. -/
def cRandomEnable (_vec : List String) (w : World σ) : Except Halt (Int × World σ) :=
  let who := (w.conn t).who
  let db := B.enableRandom w.db who
  let db := if B.paused db ∧ (B.playing db).isNone then B.resumePlaying db who else db
  { w with db := db }.reply t "250 OK\n"

/-- `c_random_disable`. -/
def cRandomDisable (_vec : List String) (w : World σ) : Except Halt (Int × World σ) :=
  { w with db := B.disableRandom w.db (w.conn t).who }.reply t "250 OK\n"

/-- `c_random_enabled`. -/
def cRandomEnabled (_vec : List String) (w : World σ) : Except Halt (Int × World σ) :=
  w.reply t ("252 " ++ noyes (B.randomIsEnabled w.db) ++ "\n")

/-- `c_stats`: start the stats subprocess, whose output `got_stats` will send; suspended. -/
def cStats (_vec : List String) (w : World σ) : Except Halt (Int × World σ) :=
  .ok (0, { w with db := B.trackdbStatsSubprocess w.db, pending := w.pending ++ [.gotStats t] })

/-- The `switch` of `c_volume` on the argument count: with no argument the volume is read, with
one both channels are set to it, with two each is set to its own; more is its `default: abort()`. -/
def volumeArgs : List String → Option (Bool × Int × Int)
  | [] => some (false, 0, 0)
  | [a] => some (true, atol a, atol a)
  | [a, b] => some (true, atol a, atol b)
  | _ :: _ :: _ :: _ => none

/-- `c_volume`: no argument reads the volume (needs `read`), one or two set it (needs `volume`),
three or more abort; a change is logged as a `volume` event. -/
def cVolume (vec : List String) (w : World σ) : Except Halt (Int × World σ) :=
  match volumeArgs vec with
  | none => .error (.fatal "abort")
  | some (set, l, r) =>
  let rights := if set then rightVolume else rightRead
  if (w.conn t).rights &&& rights = 0 then w.reply t "510 Prohibited\n" else
  match w.api with
  | none => w.reply t "550 error accessing mixer\n"
  | some api =>
    if !api.hasSetVolume then w.reply t "550 error accessing mixer\n" else
    let ((l, r), db) := if set then B.setVolume w.db l r else (B.getVolume w.db, w.db)
    do
      let w ← { w with db := db }.write t ("252 " ++ toString l ++ " " ++ toString r ++ "\n")
      if l ≠ w.volumeLeft ∨ r ≠ w.volumeRight then
        return (1, { w with volumeLeft := l, volumeRight := r,
                            db := B.eventlog w.db ["volume", toString l, toString r] })
      else return (1, w)

/-- `c_log`: `254 OK`, the current state as event lines, then the connection is subscribed to the
event log and moved to `logging_reader_callback`; suspended. -/
def cLog (_vec : List String) (w : World σ) : Except Halt (Int × World σ) := do
  let now := hexTime w.now
  let w ← w.write t "254 OK\n"
  let w ← w.write t (now ++ " state " ++
    (if B.playingIsEnabled w.db then "enable_play" else "disable_play") ++ "\n")
  let w ← w.write t (now ++ " state " ++
    (if B.randomIsEnabled w.db then "enable_random" else "disable_random") ++ "\n")
  let w ← w.write t (now ++ " state " ++ (if B.paused w.db then "pause" else "resume") ++ "\n")
  let w ← (match B.playing w.db with
    | none => pure w
    | some p => do
      let w ← w.write t (now ++ " state playing\n")
      if w.config.hlsEnable then
        match B.trackRootless p.track with
        | none => pure w
        | some bare =>
          match w.config.hlsBaseurl with
          | none => throw (.fatal "NULL dereference")
          | some base => w.write t (now ++ " hls_playout " ++ toString p.played ++ " " ++ base ++
              B.urlencodestring bare ++ "\n")
      else pure w)
  let w ← w.write t (now ++ " volume " ++ toString w.volumeLeft ++ " " ++ toString w.volumeRight ++ "\n")
  return (0, w.modifyConn t (fun c => { c with lo := true, reader := .logging }))

/-- Whether `q` is now at the head of the queue (`q == qhead.next`). -/
def isHead (db : σ) (q : QueueEntry) : Bool := ((B.queueHead db).map QueueEntry.id) == some q.id

/-- `c_move`. -/
def cMove (vec : List String) (w : World σ) : Except Halt (Int × World σ) :=
  let c := w.conn t
  match B.queueFind w.db (arg vec 0) with
  | none => w.reply t "550 no such track on the queue\n"
  | some q =>
    if !B.rightMovable c.rights c.who q then w.reply t "510 Not authorized to move that track\n" else
    let (n, db) := B.queueMove w.db q (atol (arg vec 1)) c.who
    do
      let w ← { w with db := db }.write t ("252 " ++ toString n ++ "\n")
      return (1, { w with db := if isHead B w.db q then B.prepare w.db q else w.db })

/-- `c_moveafter`: an empty first argument moves the tracks to the head. -/
def cMoveafter (vec : List String) (w : World σ) : Except Halt (Int × World σ) :=
  let c := w.conn t
  let target : Option (Option QueueEntry) :=
    if arg vec 0 ≠ "" then (B.queueFind w.db (arg vec 0)).map some else some none
  match target with
  | none => w.reply t "550 no such track on the queue\n"
  | some q =>
    match (vec.drop 1).mapM (B.queueFind w.db) with
    | none => w.reply t "550 no such track on the queue\n"
    | some qs =>
      if !qs.all (B.rightMovable c.rights c.who) then
        w.reply t "510 Not authorized to move those tracks\n"
      else do
        let w ← { w with db := B.queueMoveafter w.db q qs c.who }.write t "250 Moved tracks\n"
        return (1, { w with db := match q with
          | some q => if isHead B w.db q then B.prepare w.db q else w.db
          | none => w.db })

/-- `c_adopt`: a random entry becomes the caller's. -/
def cAdopt (vec : List String) (w : World σ) : Except Halt (Int × World σ) :=
  match (w.conn t).who with
  | none => w.reply t "550 no identity\n"
  | some who =>
    match B.queueFind w.db (arg vec 0) with
    | none => w.reply t "550 no such track on the queue\n"
    | some q =>
      if q.origin ≠ .random then w.reply t "550 not a random track\n" else
      let q := { q with origin := .adopted, submitter := some who }
      let db := B.eventlog (B.updateEntry w.db q) ["adopted", q.id, who]
      { w with db := B.queueWrite db }.reply t "250 OK\n"

/-- `c_new`: at most `max` new tracks, `max` defaulting to and capped by `new_max`. -/
def cNew (vec : List String) (w : World σ) : Except Halt (Int × World σ) :=
  let max : Int := if vec.length > 0 then atol (arg vec 0) else 2147483647
  let max := if max ≤ 0 ∨ max > w.config.newMax then w.config.newMax else max
  do
    let w ← w.write t "253 New track list follows\n"
    let w ← w.writeAll t ((B.trackdbNew w.db max).map stuffed)
    w.reply t ".\n"

/-- `c_nop`. -/
def cNop (_vec : List String) (w : World σ) : Except Halt (Int × World σ) :=
  w.reply t "250 Quack\n"

/-! ### Every handler's world grows -/

section Grows

open World

variable {w : World σ} (vec : List String)

theorem cDisable_grows : HandlerGrows w (cDisable B t vec w) :=
  .ite (.reply (.of_conns rfl rfl)) (.reply (.refl w))

theorem cEnable_grows : HandlerGrows w (cEnable B t vec w) := .reply (.of_conns rfl rfl)

theorem cEnabled_grows : HandlerGrows w (cEnabled B t vec w) := .reply (.refl w)

theorem cPlay_grows : HandlerGrows w (cPlay B t vec w) := by
  refine .ite (.reply (.refl w)) ?_
  split
  · exact .reply (.refl w)
  split
  · exact .error
  · exact .bind (.write (.of_conns rfl rfl)) fun _ h => .ok (h.trans (.of_conns rfl rfl))

theorem cPlayafter_grows : HandlerGrows w (cPlayafter B t vec w) := by
  unfold cPlayafter; split
  · exact .reply (.of_conns rfl rfl)
  · exact .bind (.write (.of_conns rfl rfl)) fun _ h => .ok (h.trans (.of_conns rfl rfl))

theorem cRemove_grows : HandlerGrows w (cRemove B t vec w) := by
  unfold cRemove; split
  · exact .reply (.refl w)
  · dsimp only; split_ifs
    exacts [.reply (.refl w), .reply (.of_conns rfl rfl)]

theorem cScratch_grows : HandlerGrows w (cScratch B t vec w) := by
  unfold cScratch; split
  · exact .reply (.refl w)
  · dsimp only; split
    exacts [.reply (.refl w), .reply (.of_conns rfl rfl)]

theorem cPause_grows : HandlerGrows w (cPause B t vec w) :=
  .ite (.reply (.refl w)) <| .ite (.reply (.refl w)) <|
    .ite (.reply (.of_conns rfl rfl)) (.reply (.of_conns rfl rfl))

theorem cResume_grows : HandlerGrows w (cResume B t vec w) :=
  .ite (.reply (.refl w)) (.reply (.of_conns rfl rfl))

theorem cShutdown_grows : HandlerGrows w (cShutdown t vec w) :=
  .bind (.write (.refl w)) fun _ _ => .error

theorem cReconfigure_grows : HandlerGrows w (cReconfigure B t vec w) := by
  unfold cReconfigure; split
  exacts [.reply (.of_conns rfl rfl), .reply (.of_conns rfl rfl)]

theorem cRescan_grows : HandlerGrows w (cRescan B t vec w) :=
  .ite (.reply (.refl w)) <|
    .ite (.ite (.ite (.ok (.of_setConn rfl rfl (List.prefix_refl _)))
          (.reply (.of_setConn rfl rfl (List.prefix_refl _))))
        (.ite (.ok (.of_conns rfl rfl)) (.reply (.refl w))))
      (.ite (.ok (.of_conns rfl rfl)) (.reply (.of_conns rfl rfl)))

theorem cVersion_grows : HandlerGrows w (cVersion B t vec w) := .reply (.refl w)

theorem cPlaying_grows : HandlerGrows w (cPlaying B t vec w) := by
  unfold cPlaying; split
  · exact .reply (.refl w)
  · dsimp only; split
    exacts [.reply (.of_conns rfl rfl), .reply (.of_conns rfl rfl)]

theorem cPlayingHls_grows : HandlerGrows w (cPlayingHls B t vec w) := by
  refine .bind (.ite (.write (.refl w)) (.ok (.refl w))) fun w₁ h => ?_
  split
  · exact .reply h
  split
  · exact .reply h
  split
  exacts [.error, .reply h]

theorem cRecent_grows : HandlerGrows w (cRecent B t vec w) :=
  .bind (.write (.refl w)) fun _ h₁ => .bind (.writeAll h₁ _) fun _ h₂ => .reply h₂

theorem queueLoop_grows (whenT : Int) (qs : List QueueEntry) {w₁ : World σ} (h : Grows w w₁) :
    ResultGrows w (queueLoop B t whenT qs w₁) := by
  induction qs generalizing whenT w₁ with
  | nil => exact .ok h
  | cons q qs ih => exact .bind (.write (h.trans (.of_conns rfl rfl))) fun _ h₂ => ih _ h₂

theorem cQueue_grows : HandlerGrows w (cQueue B t vec w) := by
  refine .bind (.write (.refl w)) fun w₁ h₁ => ?_
  split
  exact .bind (queueLoop_grows B t _ _ (h₁.trans (.of_conns rfl rfl))) fun _ h₂ => .reply h₂

theorem cRandomEnable_grows : HandlerGrows w (cRandomEnable B t vec w) := .reply (.of_conns rfl rfl)

theorem cRandomDisable_grows : HandlerGrows w (cRandomDisable B t vec w) := .reply (.of_conns rfl rfl)

theorem cRandomEnabled_grows : HandlerGrows w (cRandomEnabled B t vec w) := .reply (.refl w)

theorem cStats_grows : HandlerGrows w (cStats B t vec w) := .ok (.of_conns rfl rfl)

theorem cVolume_grows : HandlerGrows w (cVolume B t vec w) := by
  unfold cVolume
  rcases volumeArgs vec with _ | ⟨set, l, r⟩
  · exact .error
  refine .ite (.reply (.refl w)) ?_
  split
  · exact .reply (.refl w)
  refine .ite (.reply (.refl w)) ?_
  rcases (if set then B.setVolume w.db l r else (B.getVolume w.db, w.db)) with ⟨⟨l, r⟩, db⟩
  exact .bind (.write (.of_conns rfl rfl)) fun w₁ h => .ite (.ok (h.trans (.of_conns rfl rfl))) (.ok h)

theorem cLog_grows : HandlerGrows w (cLog B t vec w) := by
  refine .bind (.write (.refl w)) fun _ h₁ => .bind (.write h₁) fun _ h₂ => .bind (.write h₂)
    fun _ h₃ => .bind (.write h₃) fun w₄ h₄ => .bind ?_ fun _ h₅ => .bind (.write h₅)
    fun _ h₆ => .ok (h₆.trans (.modifyConn fun _ => List.prefix_refl _))
  split
  · exact .ok h₄
  refine .bind (.write h₄) fun _ h₅ => ?_
  split_ifs
  · split
    · exact .ok h₅
    split
    exacts [.error, .write h₅]
  · exact .ok h₅

theorem cMove_grows : HandlerGrows w (cMove B t vec w) := by
  unfold cMove; split
  · exact .reply (.refl w)
  exact .ite (.reply (.refl w)) <|
    .bind (.write (.of_conns rfl rfl)) fun _ h => .ok (h.trans (.of_conns rfl rfl))

theorem cMoveafter_grows : HandlerGrows w (cMoveafter B t vec w) := by
  unfold cMoveafter; dsimp only; split
  · exact .reply (.refl w)
  split
  · exact .reply (.refl w)
  exact .ite (.reply (.refl w)) <|
    .bind (.write (.of_conns rfl rfl)) fun _ h => .ok (h.trans (.of_conns rfl rfl))

theorem cAdopt_grows : HandlerGrows w (cAdopt B t vec w) := by
  unfold cAdopt; split
  · exact .reply (.refl w)
  split
  · exact .reply (.refl w)
  dsimp only; split_ifs
  exacts [.reply (.refl w), .reply (.of_conns rfl rfl)]

theorem cNew_grows : HandlerGrows w (cNew B t vec w) :=
  .bind (.write (.refl w)) fun _ h₁ => .bind (.writeAll h₁ _) fun _ h₂ => .reply h₂

theorem cNop_grows : HandlerGrows w (cNop t vec w) := .reply (.refl w)

end Grows

end Disorder.Server

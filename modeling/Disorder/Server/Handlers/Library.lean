import Disorder.Server.Grows
import Mathlib.Tactic.LiftLets

/-! The command handlers of server.c for the track library, preferences, the schedule, RTP
requests and playlists: files, dirs, allfiles, get, length, set, unset, prefs, exists, search,
part, resolve, tags, get-global, set-global, unset-global, rtp-address, rtp-request, rtp-cancel,
the schedule-* commands and the playlist-* commands. `playlist-set` only switches the connection to
reading a body; `c_playlist_set_body` runs when the body is complete. Every handler only grows the
world (`Grows`). -/

namespace Disorder.Server

variable {σ : Type} (B : Backend σ) (t : Nat)

/-- `trackdb_files` and `trackdb_directories`, the bits of what `files_dirs` lists (trackdb.h is
missing; they are distinct bits). -/
def trackdbFiles : Nat := 1
def trackdbDirectories : Nat := 2

/-- `output_list`: each element on a line of its own, as it is, then `.`. -/
def outputList (w : World σ) (vec : List String) : Except Halt (Int × World σ) := do
  let w ← w.writeAll t (vec.map (· ++ "\n"))
  w.reply t ".\n"

/-- `files_dirs`: list a directory's files or subdirectories matching a regexp. A non-empty regexp
makes the answer cached under the key `what \n dir \n re`. -/
def filesDirs (vec : List String) (what : Nat) (w : World σ) : Except Halt (Int × World σ) :=
  let dir : Option String := vec.get? 0
  let re : Option String := vec.get? 1
  if dir.any (fun d => d.toList.contains '\n') then w.reply t "550 invalid directory name\n" else
  if re.any (fun r => r.toList.contains '\n') then w.reply t "550 invalid regexp\n" else
  let lookup : Except String (Option String × Option (List String)) :=
    match re with
    | some r =>
      if r ≠ "" then
        let key := toString what ++ "\n" ++ dir.getD "" ++ "\n" ++ r
        match B.cacheGet w.db key with
        | some fvec => .ok (none, some fvec)
        | none =>
          match B.regexpCompile r with
          | .error e => .error e
          | .ok () => .ok (some key, none)
      else .ok (none, none)
    | none => .ok (none, none)
  match lookup with
  | .error e => w.reply t ("550 Error compiling regexp: " ++ e ++ "\n")
  | .ok (key, cached) =>
    let rec_ : Option String := if key.isSome then re else none
    let fvec := cached.getD (B.trackdbList w.db (dir.filter (· ≠ "")) what rec_)
    let db := match key with
      | some k => B.cachePut w.db k fvec
      | none => w.db
    do
      let w ← ({ w with db := db }).write t "253 Listing follow\n"
      outputList t w fvec

/-- `c_files`, `c_dirs` and `c_allfiles`. -/
def cFiles (vec : List String) (w : World σ) : Except Halt (Int × World σ) :=
  filesDirs B t vec trackdbFiles w
def cDirs (vec : List String) (w : World σ) : Except Halt (Int × World σ) :=
  filesDirs B t vec trackdbDirectories w
def cAllfiles (vec : List String) (w : World σ) : Except Halt (Int × World σ) :=
  filesDirs B t vec (trackdbDirectories ||| trackdbFiles) w

/-- Whether a preference name is internal (starts with `_`). -/
def internalName (s : String) : Bool := s.toList.head? = some '_'

/-- `c_get`: internal preferences read as not found. -/
def cGet (vec : List String) (w : World σ) : Except Halt (Int × World σ) :=
  match B.trackdbResolve w.db (arg vec 0) with
  | none => w.reply t "550 cannot resolve track\n"
  | some track =>
    match (if internalName (arg vec 1) then none else B.trackdbGet w.db track (arg vec 1)) with
    | some v => w.reply t ("252 " ++ Client.quoteutf8 v ++ "\n")
    | none => w.reply t "555 not found\n"

/-- `c_length`. -/
def cLength (vec : List String) (w : World σ) : Except Halt (Int × World σ) :=
  match B.trackdbResolve w.db (arg vec 0) with
  | none => w.reply t "550 cannot resolve track\n"
  | some track =>
    match B.trackdbGet w.db track "_length" with
    | some v => w.reply t ("252 " ++ Client.quoteutf8 v ++ "\n")
    | none => w.reply t "550 not found\n"

/-- `c_set`, also `unset` (with no third argument, a NULL value). -/
def cSet (vec : List String) (w : World σ) : Except Halt (Int × World σ) :=
  match B.trackdbResolve w.db (arg vec 0) with
  | none => w.reply t "550 cannot resolve track\n"
  | some track =>
    if internalName (arg vec 1) then w.reply t "550 not found\n" else
    match B.trackdbSet w.db track (arg vec 1) (vec.get? 2) with
    | (0, db) => ({ w with db := db }).reply t "250 OK\n"
    | (_, db) => ({ w with db := db }).reply t "550 not found\n"

/-- `c_prefs`: every preference but the internal ones. -/
def cPrefs (vec : List String) (w : World σ) : Except Halt (Int × World σ) :=
  match B.trackdbResolve w.db (arg vec 0) with
  | none => w.reply t "550 cannot resolve track\n"
  | some track => do
    let w ← w.write t "253 prefs follow\n"
    let w ← w.writeAll t (((B.trackdbGetAll w.db track).filter (fun k => !internalName k.1)).map
      (fun k => " " ++ Client.quoteutf8 k.1 ++ " " ++ Client.quoteutf8 k.2 ++ "\n"))
    w.reply t ".\n"

/-- `c_exists`. -/
def cExists (vec : List String) (w : World σ) : Except Halt (Int × World σ) :=
  w.reply t ("252 " ++ noyes (B.trackdbExists w.db (arg vec 0)) ++ "\n")

/-- `c_search`: the search terms are split like a command line; the results are sent as they
are. -/
def cSearch (vec : List String) (w : World σ) : Except Halt (Int × World σ) :=
  match B.split (arg vec 0) with
  | .error e => w.reply t ("550 " ++ e ++ "\n")
  | .ok terms =>
    let results := B.trackdbSearch w.db terms
    do
      let w ← w.write t ("253 " ++ toString results.length ++ " matches\n")
      outputList t w results

/-- `c_part`: a fourth argument that reads as non-zero asks for the displayed form. -/
def cPart (vec : List String) (w : World σ) : Except Halt (Int × World σ) :=
  let doTransform := if vec.length > 3 then atol (arg vec 3) else 0
  match B.trackdbResolve w.db (arg vec 0) with
  | none => w.reply t "550 cannot resolve track\n"
  | some track =>
    let part := B.trackdbGetpart w.db track (arg vec 1) (arg vec 2)
    if doTransform ≠ 0 then
      let kind := if arg vec 2 = "title" then "track" else "dir"
      w.reply t ("252 " ++ Client.quoteutf8 (B.tracknameTransform kind part (arg vec 1)) ++ "\n")
    else w.reply t ("252 " ++ Client.quoteutf8 part ++ "\n")

/-- `c_resolve`. -/
def cResolve (vec : List String) (w : World σ) : Except Halt (Int × World σ) :=
  match B.trackdbResolve w.db (arg vec 0) with
  | none => w.reply t "550 cannot resolve track\n"
  | some track => w.reply t ("252 " ++ Client.quoteutf8 track ++ "\n")

/-- `c_tags`. -/
def cTags (_vec : List String) (w : World σ) : Except Halt (Int × World σ) :=
  w.listResponse t "Tag list follows" (B.trackdbAlltags w.db)

/-- `c_set_global`, also `unset-global` (a NULL value). `playing` and `random-play` are the
switches of play and random play. -/
def cSetGlobal (vec : List String) (w : World σ) : Except Halt (Int × World σ) :=
  let who := (w.conn t).who
  if internalName (arg vec 0) then w.reply t "550 cannot set internal global preferences\n" else
  if arg vec 0 = "playing" then
    let db := if B.flagEnabled (vec.get? 1) then B.enablePlaying w.db who else B.disablePlaying w.db who
    ({ w with db := db }).reply t "250 OK\n"
  else if arg vec 0 = "random-play" then
    let db := if B.flagEnabled (vec.get? 1) then B.enableRandom w.db who else B.disableRandom w.db who
    ({ w with db := db }).reply t "250 OK\n"
  else
    match B.trackdbSetGlobal w.db (arg vec 0) (vec.get? 1) who with
    | (0, db) => ({ w with db := db }).reply t "250 OK\n"
    | (_, db) => ({ w with db := db }).reply t "550 not found\n"

/-- `c_get_global`. -/
def cGetGlobal (vec : List String) (w : World σ) : Except Halt (Int × World σ) :=
  match B.trackdbGetGlobal w.db (arg vec 0) with
  | some s => w.reply t ("252 " ++ Client.quoteutf8 s ++ "\n")
  | none => w.reply t "555 not found\n"

/-- `c_rtp_address`: `- -` in request mode. -/
def cRtpAddress (_vec : List String) (w : World σ) : Except Halt (Int × World σ) :=
  match w.api with
  | some api =>
    if api.isRtp then
      if w.config.rtpMode = "request" then w.reply t "252 - -\n"
      else w.reply t ("252 " ++ Client.quoteutf8 w.config.broadcast.1 ++ " " ++
        Client.quoteutf8 w.config.broadcast.2 ++ "\n")
    else w.reply t "550 No RTP\n"
  | none => w.reply t "550 No RTP\n"

/-- `c_rtp_cancel`. -/
def cRtpCancel (_vec : List String) (w : World σ) : Except Halt (Int × World σ) :=
  let c := w.conn t
  if !c.rtpRequested then w.reply t "550 No active RTP stream\n" else
  ({ w with db := B.rtpRequestCancel w.db c.rtpDestination }.modifyConn t
    (fun c => { c with rtpRequested := false })).reply t "250 Cancelled RTP stream\n"

/-- `c_rtp_request`: a new request replaces the connection's previous one. -/
def cRtpRequest (vec : List String) (w : World σ) : Except Halt (Int × World σ) :=
  match B.getaddrinfo (arg vec 0) (arg vec 1) with
  | none => w.reply t "550 Invalid address\n"
  | some addr =>
    let c := w.conn t
    let db := if c.rtpRequested then B.rtpRequestCancel w.db c.rtpDestination else w.db
    let request (c : Conn) : Conn := { c with rtpRequested := true, rtpDestination := addr }
    ({ w with db := B.rtpRequest db addr }.modifyConn t request).reply t "250 Initiated RTP stream\n"

/-- `c_schedule_list`: the IDs are sent as they are. -/
def cScheduleList (_vec : List String) (w : World σ) : Except Halt (Int × World σ) := do
  let w ← w.write t "253 ID list follows\n"
  outputList t w (B.scheduleList w.db)

/-- `c_schedule_get`. -/
def cScheduleGet (vec : List String) (w : World σ) : Except Halt (Int × World σ) :=
  match B.scheduleGet w.db (arg vec 0) with
  | none => w.reply t "555 No such event\n"
  | some actiondata => do
    let w ← w.write t "253 Event information follows\n"
    let w ← w.writeAll t (actiondata.map
      (fun k => " " ++ Client.quoteutf8 k.1 ++ " " ++ Client.quoteutf8 k.2 ++ "\n"))
    w.reply t ".\n"

/-- `c_schedule_del`: without `admin`, only the caller's own events. -/
def cScheduleDel (vec : List String) (w : World σ) : Except Halt (Int × World σ) :=
  let c := w.conn t
  match B.scheduleGet w.db (arg vec 0) with
  | none => w.reply t "555 No such event\n"
  | some actiondata =>
    if c.rights &&& rightAdmin = 0 ∧ (kvpGet actiondata "who" = none ∨ c.who = none ∨
        kvpGet actiondata "who" ≠ c.who) then
      w.reply t "510 Not authorized\n"
    else
      match B.scheduleDel w.db (arg vec 0) with
      | (0, db) => ({ w with db := db }).reply t "250 Deleted\n"
      | (_, db) => ({ w with db := db }).reply t "550 Could not delete scheduled event\n"

/-- `c_schedule_add`: the action data is the `kvp_set` calls in order; `schedule_add` checks the
rights. -/
def cScheduleAdd (vec : List String) (w : World σ) : Except Halt (Int × World σ) :=
  let base : List (String × Option String) :=
    [("who", (w.conn t).who), ("when", some (arg vec 0)), ("priority", some (arg vec 1)),
      ("action", some (arg vec 2))]
  let fields : Except String (List (String × Option String)) :=
    if arg vec 2 = "play" then
      if vec.length ≠ 4 then .error "550 Wrong number of arguments\n"
      else if !B.trackdbExists w.db (arg vec 3) then .error "550 Track is not in database\n"
      else .ok [("track", some (arg vec 3))]
    else if arg vec 2 = "set-global" then
      if vec.length < 4 ∨ vec.length > 5 then .error "550 Wrong number of arguments\n"
      else .ok (("key", some (arg vec 3)) ::
        (if vec.length > 4 then [("value", some (arg vec 4))] else []))
    else .error "550 Unknown action\n"
  match fields with
  | .error e => w.reply t e
  | .ok extra =>
    match B.scheduleAdd w.db (base ++ extra) with
    | (none, db) => ({ w with db := db }).reply t "550 Cannot add scheduled event\n"
    | (some id, db) => ({ w with db := db }).reply t ("252 " ++ id ++ "\n")

/-- `playlist_response`: the reply for a playlist call's error; success is a failed assertion. -/
def playlistResponse (w : World σ) (err : Nat) : Except Halt (Int × World σ) :=
  if err = 0 then .error (.fatal "assertion failed: cannot cope with success") else
  if err = eacces then w.reply t "510 Access denied\n" else
  if err = einval then w.reply t "550 Invalid playlist name\n" else
  if err = enoent then w.reply t "555 No such playlist\n" else
  w.reply t "550 Error accessing playlist\n"

/-- `c_playlist_get`. -/
def cPlaylistGet (vec : List String) (w : World σ) : Except Halt (Int × World σ) :=
  match B.trackdbPlaylistGet w.db (arg vec 0) (w.conn t).who with
  | (0, tracks, _) => w.listResponse t "Playlist contents follows" tracks
  | (err, _, _) => playlistResponse t w err

/-- `fetch_body`: switch the connection to reading a body for `c_playlist_set_body`. -/
def fetchBody (u : String) (w : World σ) : World σ :=
  w.modifyConn t (fun c => { c with lineReader := .bodyLine, bodyU := u, body := [] })

/-- `c_playlist_set`: read a body. -/
def cPlaylistSet (vec : List String) (w : World σ) : Except Halt (Int × World σ) :=
  .ok (1, fetchBody t (arg vec 0) w)

/-- `c_playlist_set_body`: only the playlist this connection has locked can be set. -/
def cPlaylistSetBody (body : List (List UInt8)) (playlist : String) (w : World σ) :
    Except Halt (Int × World σ) :=
  let c := w.conn t
  if c.lockedPlaylist ≠ some playlist then w.reply t "550 Playlist is not locked\n" else
  match B.trackdbPlaylistSet w.db playlist c.who (some body) none with
  | (0, db) => ({ w with db := db }).reply t "250 OK\n"
  | (err, db) => playlistResponse t { w with db := db } err

/-- `c_playlist_get_share`. -/
def cPlaylistGetShare (vec : List String) (w : World σ) : Except Halt (Int × World σ) :=
  match B.trackdbPlaylistGet w.db (arg vec 0) (w.conn t).who with
  | (0, _, share) => w.reply t ("252 " ++ Client.quoteutf8 share ++ "\n")
  | (err, _, _) => playlistResponse t w err

/-- `c_playlist_set_share`. -/
def cPlaylistSetShare (vec : List String) (w : World σ) : Except Halt (Int × World σ) :=
  match B.trackdbPlaylistSet w.db (arg vec 0) (w.conn t).who none (some (arg vec 1)) with
  | (0, db) => ({ w with db := db }).reply t "250 OK\n"
  | (err, db) => playlistResponse t { w with db := db } err

/-- `c_playlists`. -/
def cPlaylists (_vec : List String) (w : World σ) : Except Halt (Int × World σ) :=
  w.listResponse t "List of playlists follows" (B.trackdbPlaylistList w.db (w.conn t).who)

/-- `c_playlist_delete`. -/
def cPlaylistDelete (vec : List String) (w : World σ) : Except Halt (Int × World σ) :=
  match B.trackdbPlaylistDelete w.db (arg vec 0) (w.conn t).who with
  | (0, db) => ({ w with db := db }).reply t "250 OK\n"
  | (err, db) => playlistResponse t { w with db := db } err

/-- `c_playlist_lock`: after checking the caller may modify the playlist, refuse a second lock on
this connection and a lock another connection in the list holds. -/
def cPlaylistLock (vec : List String) (w : World σ) : Except Halt (Int × World σ) :=
  match B.trackdbPlaylistSet w.db (arg vec 0) (w.conn t).who none none with
  | (0, db) =>
    let w := { w with db := db }
    if (w.conn t).lockedPlaylist.isSome then w.reply t "550 Already holding a lock\n" else
    if w.connections.any (fun d => (w.conn d).lockedPlaylist = some (arg vec 0)) then
      w.reply t "550 Already locked\n"
    else
      let lock (c : Conn) : Conn := { c with lockedPlaylist := some (arg vec 0), lockedWhen := w.now }
      (w.modifyConn t lock).reply t "250 Acquired lock\n"
  | (err, db) => playlistResponse t { w with db := db } err

/-- `c_playlist_unlock`. -/
def cPlaylistUnlock (_vec : List String) (w : World σ) : Except Halt (Int × World σ) :=
  if (w.conn t).lockedPlaylist.isNone then w.reply t "550 Not holding a lock\n" else
  (w.modifyConn t (fun c => { c with lockedPlaylist := none })).reply t "250 Released lock\n"

/-! ### Every handler's world grows -/

section Grows

open World

variable {w w₁ : World σ} (vec : List String)

theorem outputList_grows {l : List String} (h : Grows w w₁) : HandlerGrows w (outputList t w₁ l) :=
  .bind (.writeAll h _) fun _ h₂ => .reply h₂

theorem filesDirs_grows (what : Nat) : HandlerGrows w (filesDirs B t vec what w) := by
  refine .ite (.reply (.refl w)) (.ite (.reply (.refl w)) ?_)
  lift_lets
  intro lookup
  rcases lookup with _ | ⟨key, cached⟩
  · exact .reply (.refl w)
  · exact .bind (.write (.of_conns rfl rfl)) fun _ h => outputList_grows t h

theorem cFiles_grows : HandlerGrows w (cFiles B t vec w) := filesDirs_grows B t vec _

theorem cDirs_grows : HandlerGrows w (cDirs B t vec w) := filesDirs_grows B t vec _

theorem cAllfiles_grows : HandlerGrows w (cAllfiles B t vec w) := filesDirs_grows B t vec _

theorem cGet_grows : HandlerGrows w (cGet B t vec w) := by
  unfold cGet; split
  · exact .reply (.refl w)
  split <;> exact .reply (.refl w)

theorem cLength_grows : HandlerGrows w (cLength B t vec w) := by
  unfold cLength; split
  · exact .reply (.refl w)
  split <;> exact .reply (.refl w)

theorem cSet_grows : HandlerGrows w (cSet B t vec w) := by
  unfold cSet; split
  · exact .reply (.refl w)
  refine .ite (.reply (.refl w)) ?_
  split <;> exact .reply (.of_conns rfl rfl)

theorem cPrefs_grows : HandlerGrows w (cPrefs B t vec w) := by
  unfold cPrefs; split
  · exact .reply (.refl w)
  exact .bind (.write (.refl w)) fun _ h => .bind (.writeAll h _) fun _ h₂ => .reply h₂

theorem cExists_grows : HandlerGrows w (cExists B t vec w) := .reply (.refl w)

theorem cSearch_grows : HandlerGrows w (cSearch B t vec w) := by
  unfold cSearch; split
  · exact .reply (.refl w)
  exact .bind (.write (.refl w)) fun _ h => outputList_grows t h

theorem cPart_grows : HandlerGrows w (cPart B t vec w) := by
  unfold cPart; dsimp only; split
  · exact .reply (.refl w)
  exact .ite (.reply (.refl w)) (.reply (.refl w))

theorem cResolve_grows : HandlerGrows w (cResolve B t vec w) := by
  unfold cResolve; split <;> exact .reply (.refl w)

theorem cTags_grows : HandlerGrows w (cTags B t vec w) := .listResponse (.refl w) _ _

theorem cSetGlobal_grows : HandlerGrows w (cSetGlobal B t vec w) := by
  refine .ite (.reply (.refl w)) (.ite (.reply (.of_conns rfl rfl))
    (.ite (.reply (.of_conns rfl rfl)) ?_))
  split <;> exact .reply (.of_conns rfl rfl)

theorem cGetGlobal_grows : HandlerGrows w (cGetGlobal B t vec w) := by
  unfold cGetGlobal; split <;> exact .reply (.refl w)

theorem cRtpAddress_grows : HandlerGrows w (cRtpAddress t vec w) := by
  unfold cRtpAddress; split
  exacts [.ite (.ite (.reply (.refl w)) (.reply (.refl w))) (.reply (.refl w)), .reply (.refl w)]

theorem cRtpCancel_grows : HandlerGrows w (cRtpCancel B t vec w) :=
  .ite (.reply (.refl w)) (.reply (.of_setConn rfl rfl (List.prefix_refl _)))

theorem cRtpRequest_grows : HandlerGrows w (cRtpRequest B t vec w) := by
  unfold cRtpRequest; split
  exacts [.reply (.refl w), .reply (.of_setConn rfl rfl (List.prefix_refl _))]

theorem cScheduleList_grows : HandlerGrows w (cScheduleList B t vec w) :=
  .bind (.write (.refl w)) fun _ h => outputList_grows t h

theorem cScheduleGet_grows : HandlerGrows w (cScheduleGet B t vec w) := by
  unfold cScheduleGet; split
  · exact .reply (.refl w)
  exact .bind (.write (.refl w)) fun _ h => .bind (.writeAll h _) fun _ h₂ => .reply h₂

theorem cScheduleDel_grows : HandlerGrows w (cScheduleDel B t vec w) := by
  unfold cScheduleDel; dsimp only; split
  · exact .reply (.refl w)
  refine .ite (.reply (.refl w)) ?_
  split <;> exact .reply (.of_conns rfl rfl)

theorem cScheduleAdd_grows : HandlerGrows w (cScheduleAdd B t vec w) := by
  unfold cScheduleAdd
  lift_lets
  intro base fields
  rcases fields with _ | extra
  · exact .reply (.refl w)
  · dsimp only; split <;> exact .reply (.of_conns rfl rfl)

theorem playlistResponse_grows {err : Nat} (h : Grows w w₁) :
    HandlerGrows w (playlistResponse t w₁ err) :=
  .ite .error (.ite (.reply h) (.ite (.reply h) (.ite (.reply h) (.reply h))))

theorem cPlaylistGet_grows : HandlerGrows w (cPlaylistGet B t vec w) := by
  unfold cPlaylistGet; split
  exacts [.listResponse (.refl w) _ _, playlistResponse_grows t (.refl w)]

/-- Switching to reading a body keeps the transcript. -/
theorem fetchBody_grows (u : String) : Grows w (fetchBody t u w) :=
  .modifyConn fun _ => List.prefix_refl _

theorem cPlaylistSet_grows : HandlerGrows w (cPlaylistSet t vec w) := .ok (fetchBody_grows t _)

theorem cPlaylistSetBody_grows (body : List (List UInt8)) (playlist : String) :
    HandlerGrows w (cPlaylistSetBody B t body playlist w) := by
  refine .ite (.reply (.refl w)) ?_
  split
  exacts [.reply (.of_conns rfl rfl), playlistResponse_grows t (.of_conns rfl rfl)]

theorem cPlaylistGetShare_grows : HandlerGrows w (cPlaylistGetShare B t vec w) := by
  unfold cPlaylistGetShare; split
  exacts [.reply (.refl w), playlistResponse_grows t (.refl w)]

theorem cPlaylistSetShare_grows : HandlerGrows w (cPlaylistSetShare B t vec w) := by
  unfold cPlaylistSetShare; split
  exacts [.reply (.of_conns rfl rfl), playlistResponse_grows t (.of_conns rfl rfl)]

theorem cPlaylists_grows : HandlerGrows w (cPlaylists B t vec w) := .listResponse (.refl w) _ _

theorem cPlaylistDelete_grows : HandlerGrows w (cPlaylistDelete B t vec w) := by
  unfold cPlaylistDelete; split
  exacts [.reply (.of_conns rfl rfl), playlistResponse_grows t (.of_conns rfl rfl)]

theorem cPlaylistLock_grows : HandlerGrows w (cPlaylistLock B t vec w) := by
  unfold cPlaylistLock; split
  · exact .ite (.reply (.of_conns rfl rfl)) (.ite (.reply (.of_conns rfl rfl))
      (.reply (.of_setConn rfl rfl (List.prefix_refl _))))
  · exact playlistResponse_grows t (.of_conns rfl rfl)

theorem cPlaylistUnlock_grows : HandlerGrows w (cPlaylistUnlock t vec w) :=
  .ite (.reply (.refl w)) (.reply (.modifyConn fun _ => List.prefix_refl _))

end Grows

end Disorder.Server

import Disorder.Server.Handlers.Queue
import Disorder.Server.Handlers.Users
import Disorder.Server.Handlers.Library

/-! The dispatcher of server.c: the `commands` table, `command`, which turns one line into a call
of a handler, and `body_line`, the line reader of a connection that is reading a command body.
A command is refused with `510 Prohibited` when its table row names rights the connection has none
of; this happens before the argument count is checked and before the handler runs. Since every
row's handler grows the world, so do `command`, `body_line` and the line reader. -/

namespace Disorder.Server

variable {σ : Type} (B : Backend σ) (t : Nat)

/-- A `struct server_command`: the name, the argument counts, the handler and the rights mask
(0: no login needed; otherwise any one of the bits will do). -/
structure ServerCommand (σ : Type) where
  name : String
  minargs : Nat
  maxargs : Nat
  fn : Nat → List String → World σ → Except Halt (Int × World σ)
  rights : Nat

/-- `INT_MAX`. -/
def intMax : Nat := 2147483647

/-- The `commands` table, in its order. -/
def commands : List (ServerCommand σ) := [
  ServerCommand.mk "adduser"        2 3      (cAdduser B)        rightAdmin,
  ServerCommand.mk "adopt"          1 1      (cAdopt B)          rightPlay,
  ServerCommand.mk "allfiles"       0 2      (cAllfiles B)       rightRead,
  ServerCommand.mk "confirm"        1 1      (cConfirm B)        0,
  ServerCommand.mk "cookie"         1 1      (cCookie B)         0,
  ServerCommand.mk "deluser"        1 1      (cDeluser B)        rightAdmin,
  ServerCommand.mk "dirs"           0 2      (cDirs B)           rightRead,
  ServerCommand.mk "disable"        0 1      (cDisable B)        rightGlobalPrefs,
  ServerCommand.mk "edituser"       3 3      (cEdituser B)       (rightAdmin ||| rightUserinfo),
  ServerCommand.mk "enable"         0 0      (cEnable B)         rightGlobalPrefs,
  ServerCommand.mk "enabled"        0 0      (cEnabled B)        rightRead,
  ServerCommand.mk "exists"         1 1      (cExists B)         rightRead,
  ServerCommand.mk "files"          0 2      (cFiles B)          rightRead,
  ServerCommand.mk "get"            2 2      (cGet B)            rightRead,
  ServerCommand.mk "get-global"     1 1      (cGetGlobal B)      rightRead,
  ServerCommand.mk "length"         1 1      (cLength B)         rightRead,
  ServerCommand.mk "log"            0 0      (cLog B)            rightRead,
  ServerCommand.mk "make-cookie"    0 0      (cMakeCookie B)     rightRead,
  ServerCommand.mk "move"           2 2      (cMove B)           rightMoveMask,
  ServerCommand.mk "moveafter"      1 intMax (cMoveafter B)      rightMoveMask,
  ServerCommand.mk "new"            0 1      (cNew B)            rightRead,
  ServerCommand.mk "nop"            0 0      cNop                0,
  ServerCommand.mk "part"           3 4      (cPart B)           rightRead,
  ServerCommand.mk "pause"          0 0      (cPause B)          rightPause,
  ServerCommand.mk "play"           1 1      (cPlay B)           rightPlay,
  ServerCommand.mk "playafter"      2 intMax (cPlayafter B)      rightPlay,
  ServerCommand.mk "playing"        0 0      (cPlaying B)        rightRead,
  ServerCommand.mk "playing-hls"    0 0      (cPlayingHls B)     rightRead,
  ServerCommand.mk "playlist-delete"    1 1  (cPlaylistDelete B)   rightPlay,
  ServerCommand.mk "playlist-get"       1 1  (cPlaylistGet B)      rightRead,
  ServerCommand.mk "playlist-get-share" 1 1  (cPlaylistGetShare B) rightRead,
  ServerCommand.mk "playlist-lock"      1 1  (cPlaylistLock B)     rightPlay,
  ServerCommand.mk "playlist-set"       1 1  cPlaylistSet          rightPlay,
  ServerCommand.mk "playlist-set-share" 2 2  (cPlaylistSetShare B) rightPlay,
  ServerCommand.mk "playlist-unlock"    0 0  cPlaylistUnlock       rightPlay,
  ServerCommand.mk "playlists"          0 0  (cPlaylists B)        rightRead,
  ServerCommand.mk "prefs"          1 1      (cPrefs B)          rightRead,
  ServerCommand.mk "queue"          0 0      (cQueue B)          rightRead,
  ServerCommand.mk "random-disable" 0 0      (cRandomDisable B)  rightGlobalPrefs,
  ServerCommand.mk "random-enable"  0 0      (cRandomEnable B)   rightGlobalPrefs,
  ServerCommand.mk "random-enabled" 0 0      (cRandomEnabled B)  rightRead,
  ServerCommand.mk "recent"         0 0      (cRecent B)         rightRead,
  ServerCommand.mk "reconfigure"    0 0      (cReconfigure B)    rightAdmin,
  ServerCommand.mk "register"       3 3      (cRegister B)       rightRegister,
  ServerCommand.mk "reminder"       1 1      (cReminder B)       rightLocal,
  ServerCommand.mk "remove"         1 1      (cRemove B)         rightRemoveMask,
  ServerCommand.mk "rescan"         0 intMax (cRescan B)         rightRescan,
  ServerCommand.mk "resolve"        1 1      (cResolve B)        rightRead,
  ServerCommand.mk "resume"         0 0      (cResume B)         rightPause,
  ServerCommand.mk "revoke"         0 0      (cRevoke B)         rightRead,
  ServerCommand.mk "rtp-address"    0 0      cRtpAddress         0,
  ServerCommand.mk "rtp-cancel"     0 0      (cRtpCancel B)      0,
  ServerCommand.mk "rtp-request"    2 2      (cRtpRequest B)     rightRead,
  ServerCommand.mk "schedule-add"   3 intMax (cScheduleAdd B)    rightRead,
  ServerCommand.mk "schedule-del"   1 1      (cScheduleDel B)    rightRead,
  ServerCommand.mk "schedule-get"   1 1      (cScheduleGet B)    rightRead,
  ServerCommand.mk "schedule-list"  0 0      (cScheduleList B)   rightRead,
  ServerCommand.mk "scratch"        0 1      (cScratch B)        rightScratchMask,
  ServerCommand.mk "search"         1 1      (cSearch B)         rightRead,
  ServerCommand.mk "set"            3 3      (cSet B)            rightPrefs,
  ServerCommand.mk "set-global"     2 2      (cSetGlobal B)      rightGlobalPrefs,
  ServerCommand.mk "shutdown"       0 0      cShutdown           rightAdmin,
  ServerCommand.mk "stats"          0 0      (cStats B)          rightRead,
  ServerCommand.mk "tags"           0 0      (cTags B)           rightRead,
  ServerCommand.mk "unset"          2 2      (cSet B)            rightPrefs,
  ServerCommand.mk "unset-global"   1 1      (cSetGlobal B)      rightGlobalPrefs,
  ServerCommand.mk "user"           2 2      (cUser B)           0,
  ServerCommand.mk "userinfo"       2 2      (cUserinfo B)       rightRead,
  ServerCommand.mk "users"          0 0      (cUsers B)          rightRead,
  ServerCommand.mk "version"        0 0      (cVersion B)        rightRead,
  ServerCommand.mk "volume"         0 2      (cVolume B)         (rightRead ||| rightVolume)]

/-- Modelled from the spec: `TABLE_FIND` (lib/table.h is missing) finds the row with that name. -/
def tableFind (name : String) : Option (ServerCommand σ) :=
  (commands B).find? (fun c => c.name = name)

/-- `command`: force the line into NFC, split it into words (a split error is reported by
`command_error` and then as `cannot parse command`), find the command, check its rights and its
argument count, and run the handler, whose result is the line's. -/
def command (line : List UInt8) (w : World σ) : Except Halt (Int × World σ) :=
  match B.utf8ComposeCanon line with
  | none => w.reply t "500 cannot normalize command\n"
  | some line =>
    match B.split line with
    | .error msg => do
      let w ← w.write t ("500 parse error: " ++ msg ++ "\n")
      w.reply t "500 cannot parse command\n"
    | .ok [] => w.reply t "500 do what?\n"
    | .ok (name :: vec) =>
      match tableFind B name with
      | none => w.reply t "500 unknown command\n"
      | some cmd =>
        if cmd.rights ≠ 0 ∧ (w.conn t).rights &&& cmd.rights = 0 then w.reply t "510 Prohibited\n"
        else if vec.length < cmd.minargs then w.reply t "500 missing argument(s)\n"
        else if vec.length > cmd.maxargs then w.reply t "500 too many arguments\n"
        else cmd.fn t vec w

/-- A line that names a command the connection may run, with an argument count in range, runs its
handler on the remaining words. -/
theorem command_eq_handler {line : List UInt8} {l name : String} {vec : List String}
    {cmd : ServerCommand σ} {w : World σ} (hcanon : B.utf8ComposeCanon line = some l)
    (hsplit : B.split l = .ok (name :: vec)) (hfind : tableFind B name = some cmd)
    (hrights : cmd.rights = 0 ∨ (w.conn t).rights &&& cmd.rights ≠ 0)
    (hmin : cmd.minargs ≤ vec.length) (hmax : vec.length ≤ cmd.maxargs) :
    command B t line w = cmd.fn t vec w := by
  simp only [command, hcanon, hsplit, hfind]
  rw [if_neg (by tauto), if_neg (by omega), if_neg (by omega)]

/-- A command whose rights the connection has none of is refused before its argument count is
checked or its handler runs. -/
theorem command_prohibited {line : List UInt8} {l name : String} {vec : List String}
    {cmd : ServerCommand σ} {w : World σ} (hcanon : B.utf8ComposeCanon line = some l)
    (hsplit : B.split l = .ok (name :: vec)) (hfind : tableFind B name = some cmd)
    (hr : cmd.rights ≠ 0) (hlack : (w.conn t).rights &&& cmd.rights = 0) :
    command B t line w = w.reply t "510 Prohibited\n" := by
  simp only [command, hcanon, hsplit, hfind]
  rw [if_pos ⟨hr, hlack⟩]

theorem tableFind_confirm : tableFind B "confirm" = some ⟨"confirm", 1, 1, cConfirm B, 0⟩ := rfl
theorem tableFind_stats : tableFind B "stats" = some ⟨"stats", 0, 0, cStats B, rightRead⟩ := rfl
theorem tableFind_nop : tableFind B "nop" = some ⟨"nop", 0, 0, cNop, 0⟩ := rfl
theorem tableFind_playingHls :
    tableFind B "playing-hls" = some ⟨"playing-hls", 0, 0, cPlayingHls B, rightRead⟩ := rfl

/-- `body_line`: the line `.` ends the body, puts the connection back on `command` and hands the
body to the body callback (`c_playlist_set_body`, the only caller of `fetch_body`); any other line,
less one leading `.`, is added to the body. -/
def bodyLine (line : List UInt8) (w : World σ) : Except Halt (Int × World σ) :=
  let append (l : List UInt8) : Except Halt (Int × World σ) :=
    .ok (1, w.modifyConn t (fun c => { c with body := c.body ++ [l] }))
  match line with
  | 46 :: rest =>
    if rest = [] then
      let c := w.conn t
      cPlaylistSetBody B t c.body c.bodyU (w.modifyConn t (fun c => { c with lineReader := .command }))
    else append rest
  | _ => append line

/-- `c->line_reader(c, line)`: `command`, or `body_line` while a body is read. -/
def lineReader (line : List UInt8) (w : World σ) : Except Halt (Int × World σ) :=
  match (w.conn t).lineReader with
  | .command => command B t line w
  | .bodyLine => bodyLine B t line w

/-! ### The dispatcher's world grows -/

section Grows

open World

variable {w : World σ}

/-- Every handler of the table only grows the world. -/
theorem commands_grow : ∀ c ∈ commands B, ∀ t vec (w : World σ), HandlerGrows w (c.fn t vec w) :=
  List.forall_iff_forall_mem.1 ⟨fun t vec _ => cAdduser_grows B t vec,
    fun t vec _ => cAdopt_grows B t vec,
    fun t vec _ => cAllfiles_grows B t vec,
    fun t vec _ => cConfirm_grows B t vec,
    fun t vec _ => cCookie_grows B t vec,
    fun t vec _ => cDeluser_grows B t vec,
    fun t vec _ => cDirs_grows B t vec,
    fun t vec _ => cDisable_grows B t vec,
    fun t vec _ => cEdituser_grows B t vec,
    fun t vec _ => cEnable_grows B t vec,
    fun t vec _ => cEnabled_grows B t vec,
    fun t vec _ => cExists_grows B t vec,
    fun t vec _ => cFiles_grows B t vec,
    fun t vec _ => cGet_grows B t vec,
    fun t vec _ => cGetGlobal_grows B t vec,
    fun t vec _ => cLength_grows B t vec,
    fun t vec _ => cLog_grows B t vec,
    fun t vec _ => cMakeCookie_grows B t vec,
    fun t vec _ => cMove_grows B t vec,
    fun t vec _ => cMoveafter_grows B t vec,
    fun t vec _ => cNew_grows B t vec,
    fun t vec _ => cNop_grows t vec,
    fun t vec _ => cPart_grows B t vec,
    fun t vec _ => cPause_grows B t vec,
    fun t vec _ => cPlay_grows B t vec,
    fun t vec _ => cPlayafter_grows B t vec,
    fun t vec _ => cPlaying_grows B t vec,
    fun t vec _ => cPlayingHls_grows B t vec,
    fun t vec _ => cPlaylistDelete_grows B t vec,
    fun t vec _ => cPlaylistGet_grows B t vec,
    fun t vec _ => cPlaylistGetShare_grows B t vec,
    fun t vec _ => cPlaylistLock_grows B t vec,
    fun t vec _ => cPlaylistSet_grows t vec,
    fun t vec _ => cPlaylistSetShare_grows B t vec,
    fun t vec _ => cPlaylistUnlock_grows t vec,
    fun t vec _ => cPlaylists_grows B t vec,
    fun t vec _ => cPrefs_grows B t vec,
    fun t vec _ => cQueue_grows B t vec,
    fun t vec _ => cRandomDisable_grows B t vec,
    fun t vec _ => cRandomEnable_grows B t vec,
    fun t vec _ => cRandomEnabled_grows B t vec,
    fun t vec _ => cRecent_grows B t vec,
    fun t vec _ => cReconfigure_grows B t vec,
    fun t vec _ => cRegister_grows B t vec,
    fun t vec _ => cReminder_grows B t vec,
    fun t vec _ => cRemove_grows B t vec,
    fun t vec _ => cRescan_grows B t vec,
    fun t vec _ => cResolve_grows B t vec,
    fun t vec _ => cResume_grows B t vec,
    fun t vec _ => cRevoke_grows B t vec,
    fun t vec _ => cRtpAddress_grows t vec,
    fun t vec _ => cRtpCancel_grows B t vec,
    fun t vec _ => cRtpRequest_grows B t vec,
    fun t vec _ => cScheduleAdd_grows B t vec,
    fun t vec _ => cScheduleDel_grows B t vec,
    fun t vec _ => cScheduleGet_grows B t vec,
    fun t vec _ => cScheduleList_grows B t vec,
    fun t vec _ => cScratch_grows B t vec,
    fun t vec _ => cSearch_grows B t vec,
    fun t vec _ => cSet_grows B t vec,
    fun t vec _ => cSetGlobal_grows B t vec,
    fun t vec _ => cShutdown_grows t vec,
    fun t vec _ => cStats_grows B t vec,
    fun t vec _ => cTags_grows B t vec,
    fun t vec _ => cSet_grows B t vec,
    fun t vec _ => cSetGlobal_grows B t vec,
    fun t vec _ => cUser_grows B t vec,
    fun t vec _ => cUserinfo_grows B t vec,
    fun t vec _ => cUsers_grows B t vec,
    fun t vec _ => cVersion_grows B t vec,
    fun t vec _ => cVolume_grows B t vec⟩

theorem command_grows (line : List UInt8) : HandlerGrows w (command B t line w) := by
  unfold command
  split
  · exact .reply (.refl w)
  split
  · exact .bind (.write (.refl w)) fun _ h => .reply h
  · exact .reply (.refl w)
  split
  · exact .reply (.refl w)
  exact .ite (.reply (.refl w)) <| .ite (.reply (.refl w)) <| .ite (.reply (.refl w)) <|
    commands_grow B _ (List.mem_of_find?_eq_some (by assumption)) t _ w

theorem bodyLine_grows (line : List UInt8) : HandlerGrows w (bodyLine B t line w) := by
  have happend (l : List UInt8) : Grows w (w.modifyConn t fun c => { c with body := c.body ++ [l] }) :=
    .modifyConn fun _ => List.prefix_refl _
  have hcommand : Grows w (w.modifyConn t fun c => { c with lineReader := .command }) :=
    .modifyConn fun _ => List.prefix_refl _
  unfold bodyLine
  split
  · exact .ite (.pre (cPlaylistSetBody_grows B t _ _) hcommand) (.ok (happend _))
  · exact .ok (happend _)

theorem lineReader_grows (line : List UInt8) : HandlerGrows w (lineReader B t line w) := by
  unfold lineReader; split
  exacts [command_grows B t line, bodyLine_grows B t line]

end Grows

end Disorder.Server

import Disorder.Server.Grows

/-! The command handlers of server.c for logins and user management: user, cookie and confirm
(which set the connection's identity and rights, ORing in `RIGHT__LOCAL` when `connection_host`
says "local"), make-cookie, revoke, adduser, deluser, edituser, userinfo, users, register and
reminder. deluser and edituser also change the rights of the other connections logged in as the
user, comparing each connection's login with `strcmp`; like every handler, they only grow the
world (`Grows`), as those changes keep every transcript. -/

namespace Disorder.Server

variable {σ : Type} (B : Backend σ) (t : Nat)

/-- `connection_host`: the peer's numeric address, or "local" on a UNIX-domain listener; `none`
when `getpeername` or `getnameinfo` fails. -/
def connectionHost (c : Conn) : Option String :=
  match c.peer with
  | none => none
  | some host => if c.l.pf ≠ .unix then some host else some "local"

/-- The rights a successful login gives: the parsed rights, with `RIGHT__LOCAL` ORed in when the
host is "local". -/
def loginRights (host : String) (rights : Nat) : Nat :=
  if host ≠ "local" then rights else rights ||| rightLocal

/-- `c_user`: refuse a second login, then check the user's record and the response to the
connection's nonce; the privileged listener and `wideopen` accept any response. -/
def cUser (vec : List String) (w : World σ) : Except Halt (Int × World σ) :=
  let c := w.conn t
  if c.who.isSome then w.reply t "530 already authenticated\n" else
  match connectionHost c with
  | none => w.reply t "530 authentication failure\n"
  | some host =>
    match B.trackdbGetuserinfo w.db (arg vec 0) with
    | none => w.reply t "530 authentication failed\n"
    | some k =>
      if (kvpGet k "confirmation").isSome then w.reply t "530 authentication failed\n" else
      let password := (kvpGet k "password").getD ""
      match B.parseRights (kvpGet k "rights") with
      | none => w.reply t "530 authentication failed\n"
      | some rights =>
        let res := B.authhash c.nonce password w.config.authorizationAlgorithm
        if w.wideopen ∨ c.l.privileged ∨ res = some (arg vec 1) then
          let login (c : Conn) : Conn :=
            { c with who := some (arg vec 0), rights := loginRights host rights }
          (w.modifyConn t login).reply t "230 OK\n"
        else w.reply t "530 authentication failed\n"

/-- `c_cookie`: refuse a second login, then log in as the cookie's user with its rights. -/
def cCookie (vec : List String) (w : World σ) : Except Halt (Int × World σ) :=
  let c := w.conn t
  if c.who.isSome then w.reply t "530 already authenticated\n" else
  match connectionHost c with
  | none => w.reply t "530 authentication failure\n"
  | some host =>
    match B.verifyCookie w.db (arg vec 0) with
    | none => w.reply t "530 authentication failure\n"
    | some (user, rights) =>
      let login (c : Conn) : Conn :=
        { c with who := some user, cookie := some (arg vec 0), rights := loginRights host rights }
      (w.modifyConn t login).reply t ("232 " ++ Client.quoteutf8 user ++ "\n")

/-- `c_make_cookie`. -/
def cMakeCookie (_vec : List String) (w : World σ) : Except Halt (Int × World σ) :=
  match B.makeCookie w.db (w.conn t).who with
  | (some cookie, db) => { w with db := db }.reply t ("252 " ++ Client.quoteutf8 cookie ++ "\n")
  | (none, db) => { w with db := db }.reply t "550 Cannot create cookie\n"

/-- `c_revoke`. -/
def cRevoke (_vec : List String) (w : World σ) : Except Halt (Int × World σ) :=
  match (w.conn t).cookie with
  | some cookie => { w with db := B.revokeCookie w.db cookie }.reply t "250 OK\n"
  | none => w.reply t "510 Did not log in with cookie\n"

/-- The test user management starts with: refused when remote user management is off and the
connection lacks `RIGHT__LOCAL`. -/
def remoteRefused (w : World σ) : Bool :=
  !w.config.remoteUserman && (w.conn t).rights &&& rightLocal = 0

/-- `c_adduser`: an invalid rights list is refused with the return value -1. -/
def cAdduser (vec : List String) (w : World σ) : Except Halt (Int × World σ) :=
  if remoteRefused t w then w.reply t "510 Remote user management is disabled\n" else
  let rights : Option String :=
    if vec.length > 2 then (B.parseRights (some (arg vec 2))).map (fun _ => arg vec 2)
    else some w.config.defaultRights
  match rights with
  | none => do
    let w ← w.write t "550 Invalid rights list\n"
    return (-1, w)
  | some rights =>
    match B.trackdbAdduser w.db (arg vec 0) (arg vec 1) rights none none with
    | (0, db) => { w with db := db }.reply t "250 User created\n"
    | (_, db) => { w with db := db }.reply t "550 Cannot create user\n"

/-- The loop over the `connections` list that sets the rights of every connection logged in as
`user`. `strcmp` on a connection with no login is a NULL dereference. -/
def zapRights (user : String) (rights : Nat) (w : World σ) : Except Halt (World σ) :=
  w.connections.foldlM (fun w d =>
    match (w.conn d).who with
    | none => .error (.fatal "NULL dereference")
    | some who => .ok (if who = user then w.modifyConn d (fun c => { c with rights := rights }) else w))
    w

/-- `c_deluser`: delete the user, then zero the rights of its connections. -/
def cDeluser (vec : List String) (w : World σ) : Except Halt (Int × World σ) :=
  if remoteRefused t w then w.reply t "510 Remote user management is disabled\n" else
  match B.trackdbDeluser w.db (arg vec 0) with
  | (0, db) => do
    let w ← zapRights (arg vec 0) 0 { w with db := db }
    w.reply t "250 User deleted\n"
  | (_, db) => { w with db := db }.reply t "550 Cannot delete user\n"

/-- The loop of `c_edituser` after a rights change: each connection logged in as `user` gets the
new rights, and one subscribed to the event log is told with a `rights_changed` line. -/
def setRightsLoop (user : String) (r : Nat) (newRights : String) (w : World σ) :
    Except Halt (World σ) :=
  w.connections.foldlM (fun w d =>
    match (w.conn d).who with
    | none => .error (.fatal "NULL dereference")
    | some who =>
      if who = user then
        let w := w.modifyConn d (fun c => { c with rights := r })
        if (w.conn d).lo then
          w.write d (hexTime w.now ++ " rights_changed " ++ Client.quoteutf8 newRights ++ "\n")
        else .ok w
      else .ok w)
    w

/-- Whether a caller without `admin` is asking about itself and one of two properties.
`strcmp(c->who, user)` on a connection with no login is a NULL dereference. -/
def selfProperty (c : Conn) (user prop p₁ p₂ : String) : Except Halt Bool :=
  match c.who with
  | none => .error (.fatal "NULL dereference")
  | some who => .ok (who = user ∧ (prop = p₁ ∨ prop = p₂))

/-- `c_edituser`: `admin` may change anything, others only their own email and password. A
password change zeroes the rights of the user's connections; a rights change sets them. -/
def cEdituser (vec : List String) (w : World σ) : Except Halt (Int × World σ) :=
  if remoteRefused t w then w.reply t "510 Remote user management is disabled\n" else
  let c := w.conn t
  match (if c.rights &&& rightAdmin ≠ 0 then .ok true
      else selfProperty c (arg vec 0) (arg vec 1) "email" "password") with
  | .error e => .error e
  | .ok false => w.reply t "510 Restricted to administrators\n"
  | .ok true =>
    match B.trackdbEdituserinfo w.db (arg vec 0) (arg vec 1) (arg vec 2) with
    | (0, db) => do
      let w := { w with db := db }
      let w ← (if arg vec 1 = "password" then zapRights (arg vec 0) 0 w
        else if arg vec 1 = "rights" then
          match B.parseRights (some (arg vec 2)) with
          | some r => setRightsLoop (arg vec 0) r (B.rightsString r) w
          | none => pure w
        else pure w)
      w.reply t "250 OK\n"
    | (_, db) => { w with db := db }.reply t "550 Failed to change setting\n"

/-- `c_userinfo`: remote callers may always ask for rights; `admin` may read anything, others only
their own email and rights. -/
def cUserinfo (vec : List String) (w : World σ) : Except Halt (Int × World σ) :=
  if remoteRefused t w ∧ arg vec 1 ≠ "rights" then
    w.reply t "510 Remote user management is disabled\n" else
  let c := w.conn t
  match (if c.rights &&& rightAdmin ≠ 0 then .ok true
      else selfProperty c (arg vec 0) (arg vec 1) "email" "rights") with
  | .error e => .error e
  | .ok false => w.reply t "510 Restricted to administrators\n"
  | .ok true =>
    match B.trackdbGetuserinfo w.db (arg vec 0) with
    | none => w.reply t "550 No such user\n"
    | some k =>
      match kvpGet k (arg vec 1) with
      | some value => w.reply t ("252 " ++ Client.quoteutf8 value ++ "\n")
      | none => w.reply t "555 Not set\n"

/-- `c_users`. -/
def cUsers (_vec : List String) (w : World σ) : Except Halt (Int × World σ) :=
  w.listResponse t "User list follows" (B.trackdbListusers w.db)

/-- `c_register`: the confirmation string is the user name, `/`, and a base-62 nonce. A failure of
`basen` is reported and the handler goes on. -/
def cRegister (vec : List String) (w : World σ) : Except Halt (Int × World σ) := do
  let (nonce, db) := B.gcryRandomize w.db 8
  let w := { w with db := db }
  let (ok, nonceStr) := B.basen nonce
  let w ← (if !ok then w.write t "550 Cannot create user\n" else pure w)
  let cs := arg vec 0 ++ "/" ++ nonceStr
  match B.trackdbAdduser w.db (arg vec 0) (arg vec 1) w.config.defaultRights (some (arg vec 2))
      (some cs) with
  | (0, db) => ({ w with db := db }).reply t ("252 " ++ Client.quoteutf8 cs ++ "\n")
  | (_, db) => ({ w with db := db }).reply t "550 Cannot create user\n"

/-- The user of a confirmation string: what stands before its last `/` (`strrchr`). -/
def confirmUser (s : String) : String := String.mk ((s.toList.reverse.dropWhile (· ≠ '/')).drop 1).reverse

/-- `c_confirm`: a correct confirmation string logs the connection in, whatever login it had
before. -/
def cConfirm (vec : List String) (w : World σ) : Except Halt (Int × World σ) :=
  match connectionHost (w.conn t) with
  | none => w.reply t "530 Authentication failure\n"
  | some host =>
    let s := arg vec 0
    if !s.toList.contains '/' then w.reply t "550 Malformed confirmation string\n" else
    let user := confirmUser s
    match B.trackdbConfirm w.db user s with
    | (none, db) => { w with db := db }.reply t "510 Incorrect confirmation string\n"
    | (some rights, db) =>
      let login (c : Conn) : Conn :=
        { c with who := some user, cookie := none, rights := loginRights host rights }
      ({ w with db := db }.modifyConn t login).reply t ("232 " ++ Client.quoteutf8 user ++ "\n")

/-- `c_reminder`: mail the user's password, at most once per `reminder_interval` per user name
(kept in a `hash` made on first use); suspended until the mail subprocess exits. -/
def cReminder (vec : List String) (w : World σ) : Except Halt (Int × World σ) :=
  let fail := w.reply t "550 Cannot send a reminder email\n"
  match w.config.mailSender with
  | none => fail
  | some sender =>
    match B.trackdbGetuserinfo w.db (arg vec 0) with
    | none => fail
    | some k =>
      match kvpGet k "email" with
      | none => fail
      | some email =>
        if !B.emailValid email then fail else
        match kvpGet k "password" with
        | none => fail
        | some password =>
          if password = "" then fail else
          let table := w.lastReminder.getD HashTable.hashNew
          let w := { w with lastReminder := some table }
          let last := (HashTable.hashFind table (utf8 (arg vec 0))).bind id
          if last.any (fun l => w.now < l + w.config.reminderInterval) then fail else
          let text := "Someone requested that you be sent a reminder of your DisOrder password.\n" ++
            "Your password is:\n\n  " ++ password ++ "\n"
          match B.mimeEncodeText text with
          | none => .error (.fatal "cannot encode email")
          | some (text, charset, encoding) =>
            match B.sendmailSubprocess w.db "" sender email "DisOrder password reminder" encoding
                ("text/plain;charset=" ++ B.quote822 charset) text with
            | (none, db) => { w with db := db }.reply t "550 Cannot send a reminder email\n"
            | (some pid, db) =>
              let table := (HashTable.hashAdd table (utf8 (arg vec 0)) (some w.now) .insertOrReplace).2
              .ok (0, { w with db := db, lastReminder := some table,
                                pending := w.pending ++ [.sentReminder t pid] })

/-! ### Every handler's world grows -/

section Grows

open World

variable {w w₁ : World σ} (vec : List String)

theorem cUser_grows : HandlerGrows w (cUser B t vec w) := by
  refine .ite (.reply (.refl w)) ?_
  split
  · exact .reply (.refl w)
  split
  · exact .reply (.refl w)
  refine .ite (.reply (.refl w)) ?_
  dsimp only
  split
  · exact .reply (.refl w)
  exact .ite (.reply (.modifyConn fun _ => List.prefix_refl _)) (.reply (.refl w))

theorem cCookie_grows : HandlerGrows w (cCookie B t vec w) := by
  refine .ite (.reply (.refl w)) ?_
  split
  · exact .reply (.refl w)
  split
  exacts [.reply (.refl w), .reply (.modifyConn fun _ => List.prefix_refl _)]

theorem cMakeCookie_grows : HandlerGrows w (cMakeCookie B t vec w) := by
  unfold cMakeCookie; split <;> exact .reply (.of_conns rfl rfl)

theorem cRevoke_grows : HandlerGrows w (cRevoke B t vec w) := by
  unfold cRevoke; split
  exacts [.reply (.of_conns rfl rfl), .reply (.refl w)]

theorem cAdduser_grows : HandlerGrows w (cAdduser B t vec w) := by
  refine .ite (.reply (.refl w)) ?_
  dsimp only
  split
  · exact .bind (.write (.refl w)) fun _ h => .ok h
  split <;> exact .reply (.of_conns rfl rfl)

/-- Changing the rights of connections keeps their transcripts. -/
theorem zapRights_grows (user : String) (rights : Nat) (h : Grows w w₁) :
    ResultGrows w (zapRights user rights w₁) := by
  refine .foldlM (fun w₂ d h₂ => ?_) h _
  split
  · exact .error
  · exact .ok (by split; exacts [h₂.trans (.modifyConn fun _ => List.prefix_refl _), h₂])

theorem cDeluser_grows : HandlerGrows w (cDeluser B t vec w) := by
  refine .ite (.reply (.refl w)) ?_
  split
  exacts [.bind (zapRights_grows _ _ (.of_conns rfl rfl)) fun _ h => .reply h, .reply (.of_conns rfl rfl)]

/-- Changing the rights of connections, and telling those subscribed to the event log, only
appends to transcripts. -/
theorem setRightsLoop_grows (user : String) (r : Nat) (newRights : String) (h : Grows w w₁) :
    ResultGrows w (setRightsLoop user r newRights w₁) := by
  refine .foldlM (fun w₂ d h₂ => ?_) h _
  split
  · exact .error
  have h₃ : Grows w (w₂.modifyConn d fun c => { c with rights := r }) :=
    h₂.trans (.modifyConn fun _ => List.prefix_refl _)
  exact .ite (.ite (.write h₃) (.ok h₃)) (.ok h₂)

theorem cEdituser_grows : HandlerGrows w (cEdituser B t vec w) := by
  refine .ite (.reply (.refl w)) ?_
  dsimp only
  split
  · exact .error
  · exact .reply (.refl w)
  split
  · refine .bind (.ite (zapRights_grows _ _ (.of_conns rfl rfl)) (.ite ?_ (.ok (.of_conns rfl rfl))))
      fun _ h => .reply h
    split
    exacts [setRightsLoop_grows _ _ _ (.of_conns rfl rfl), .ok (.of_conns rfl rfl)]
  · exact .reply (.of_conns rfl rfl)

theorem cUserinfo_grows : HandlerGrows w (cUserinfo B t vec w) := by
  refine .ite (.reply (.refl w)) ?_
  dsimp only
  split
  · exact .error
  · exact .reply (.refl w)
  split
  · exact .reply (.refl w)
  split <;> exact .reply (.refl w)

theorem cUsers_grows : HandlerGrows w (cUsers B t vec w) := .listResponse (.refl w) _ _

theorem cRegister_grows : HandlerGrows w (cRegister B t vec w) := by
  unfold cRegister
  rcases B.gcryRandomize w.db 8 with ⟨nonce, db⟩
  rcases B.basen nonce with ⟨ok, nonceStr⟩
  refine .bind (.ite (.write (.of_conns rfl rfl)) (.ok (.of_conns rfl rfl))) fun w₁ h => ?_
  dsimp only
  split <;> exact .reply (h.trans (.of_conns rfl rfl))

theorem cConfirm_grows : HandlerGrows w (cConfirm B t vec w) := by
  unfold cConfirm
  split
  · exact .reply (.refl w)
  refine .ite (.reply (.refl w)) ?_
  dsimp only
  split
  exacts [.reply (.of_conns rfl rfl), .reply (.of_setConn rfl rfl (List.prefix_refl _))]

theorem cReminder_grows : HandlerGrows w (cReminder B t vec w) := by
  unfold cReminder
  dsimp only
  split
  · exact .reply (.refl w)
  split
  · exact .reply (.refl w)
  split
  · exact .reply (.refl w)
  refine .ite (.reply (.refl w)) ?_
  split
  · exact .reply (.refl w)
  refine .ite (.reply (.refl w)) (.ite (.reply (.refl w)) ?_)
  split
  · exact .error
  split
  exacts [.reply (.of_conns rfl rfl), .ok (.of_conns rfl rfl)]

end Grows

end Disorder.Server

import Limbo.Lib.Bytes
import Limbo.Vnc.Password

/-!
# The handshake of the VNC server

One connection of the server, from `vnc_connect` on, with the chain of read handlers that lead to
`protocol_client_init`, compiled without TLS and SASL. What the sockets, the clock, the random
numbers and the messages after the handshake do is asked of the environment, one answer a question.
Whatever the client sends and in whatever pieces, and however the password and its expiry are
changed meanwhile, `protocol_client_init` is reached only on a connection that needs no password or
whose client has returned the response of the password.
-/

namespace Limbo.Vnc.Authentication

open Lib Password

/-! ### The connection -/

/-- `VNC_AUTH_INVALID`, `VNC_AUTH_NONE` and `VNC_AUTH_VNC`. -/
inductive AuthType
  | invalid
  | none
  | vnc
  deriving DecidableEq

/-- The number of a type on the wire. -/
def AuthType.code : AuthType → ℕ
  | .invalid => 0
  | .none => 1
  | .vnc => 2

/-- The functions that are installed as read handlers. -/
inductive Handler
  | protocolVersion
  | protocolClientAuth
  | protocolClientAuthVnc
  | protocolClientInit
  | protocolClientMsg
  deriving DecidableEq

/-- What `send` returns. -/
inductive Sent
  | failed
  | again
  | wrote (n : ℕ)

/-- What the environment answers to one question. -/
structure Answer where
  /-- `send`. -/
  sent : Sent
  /-- `time(NULL)`. -/
  now : ℤ
  /-- `rand`, for the bytes of a challenge. -/
  rand : ℕ → UInt8
  /-- The share policy disconnects the client. -/
  refused : Bool
  /-- The bytes that a message of the client has written to it. -/
  output : List UInt8
  /-- The value that `protocol_client_msg` returns. -/
  ret : ℕ

/-- A call of `protocol_client_auth_vnc`: the bytes from the client, the password and its expiry as
configured at the time, the time, the challenge of the connection, and what has been written to the
client until then. -/
structure Check where
  data : List UInt8
  password : Option CString
  expires : ℤ
  now : ℤ
  challenge : List UInt8
  written : List UInt8

/-- The bytes of the client are the response, under the configured and unexpired password, to a
challenge that had been written to the client. -/
def Check.Passed (w : ℕ) (c : Check) (received : List UInt8) : Prop :=
  ∃ password, c.password = some password ∧ ¬ c.expires < c.now ∧
    c.data = response w password c.challenge ∧ c.challenge <:+: c.written ∧ c.data <:+: received

/-- The display, one connection to it, and the history of that connection. -/
structure Server where
  /-- `vd->password`. -/
  password : Option CString
  /-- `vd->expires`. -/
  expires : ℤ
  /-- `vd->auth`. -/
  displayAuth : AuthType
  /-- `vs->csock` is not `-1`. -/
  csock : Bool
  /-- `vs->auth`. -/
  auth : AuthType
  major : ℤ
  minor : ℤ
  challenge : List UInt8
  input : List UInt8
  output : List UInt8
  readHandler : Handler
  readHandlerExpect : ℕ
  /-- What the client has been sent. -/
  sent : List UInt8
  /-- What the client has sent. -/
  received : List UInt8
  checks : List Check
  /-- The number of questions the environment has answered. -/
  clock : ℕ

namespace Server

variable (w : ℕ) (env : ℕ → Answer)

/-! ### Output -/

def disconnectStart (s : Server) : Server := { s with csock := false }

def clientError (s : Server) : Server := s.disconnectStart

def write (s : Server) (data : List UInt8) : Server := { s with output := s.output ++ data }

def writeU8 (s : Server) (value : ℕ) : Server := s.write [UInt8.ofNat value]

def writeU32 (s : Server) (value : ℕ) : Server := s.write (beBytes 4 value)

/-- `vnc_flush`, and `vnc_client_write` where there is something to write. -/
def flush (s : Server) : Server :=
  if s.csock ∧ s.output ≠ [] then
    match (env s.clock).sent with
    | .failed => ({ s with clock := s.clock + 1 } : Server).disconnectStart
    | .again => { s with clock := s.clock + 1 }
    | .wrote n =>
      { s with
        clock := s.clock + 1
        sent := s.sent ++ s.output.take n
        output := s.output.drop n }
  else s

def readWhen (s : Server) (func : Handler) (expecting : ℕ) : Server :=
  { s with readHandler := func, readHandlerExpect := expecting }

/-! ### The read handlers -/

def startClientInit (s : Server) : Server := s.readWhen .protocolClientInit 1

def makeChallenge (s : Server) : Server :=
  { s with clock := s.clock + 1, challenge := (List.range 16).map (env s.clock).rand }

def startAuthVnc (s : Server) : Server :=
  let s := s.makeChallenge env
  let s := (s.write s.challenge).flush env
  s.readWhen .protocolClientAuthVnc 16

/-- `static const char err[]`, with its terminator. -/
def err : List UInt8 := cstr "Authentication failed" ++ [0]

/-- The reason that a client of version 3.8 is told. -/
def writeReason (s : Server) : Server :=
  if 8 ≤ s.minor then (s.writeU32 err.length).write err else s

/-- The label `reject` of `protocol_client_auth_vnc`. -/
def reject (s : Server) : Server := ((s.writeU32 1).writeReason.flush env).clientError

def protocolClientAuthVnc (data : List UInt8) (s : Server) : Server :=
  let now := (env s.clock).now
  let check : Check := ⟨data, s.password, s.expires, now, s.challenge, s.sent ++ s.output⟩
  let s : Server := { s with clock := s.clock + 1, checks := s.checks ++ [check] }
  match s.password with
  | none => s.reject env
  | some password =>
    if s.expires < now then s.reject env
    else if response w password s.challenge ≠ data then s.reject env
    else ((s.writeU32 0).flush env).startClientInit

def protocolClientAuth (data : List UInt8) (s : Server) : Server :=
  if (data.getD 0 0).toNat ≠ s.auth.code then (s.writeU32 1).writeReason.clientError
  else
    match s.auth with
    | .none => (if 8 ≤ s.minor then (s.writeU32 0).flush env else s).startClientInit
    | .vnc => s.startAuthVnc env
    | .invalid => (s.writeU8 1).writeReason.clientError

/-- `%03d`: at most three characters after white space, the sign included. -/
def scanInt (s : CString) : Option (ℤ × CString) :=
  let s := s.dropWhile isspace
  let sign := s.head? = some 45 ∨ s.head? = some 43
  let digits := ((s.take 3).drop (if sign then 1 else 0)).takeWhile isdigit
  if digits = [] then none
  else
    let n : ℤ := digitsValue digits
    some (if s.head? = some 45 then -n else n, s.drop (digits.length + if sign then 1 else 0))

/-- `sscanf(local, "RFB %03d.%03d\n", &vs->major, &vs->minor)`, where it converts both numbers. -/
def scanVersion (version : List UInt8) : Option (ℤ × ℤ) := do
  let s := version.takeWhile (· != 0)
  guard (s.take 3 = cstr "RFB")
  let (major, s) ← scanInt (s.drop 3)
  guard (s.head? = some 46)
  let (minor, _) ← scanInt (s.drop 1)
  pure (major, minor)

/-- The answer to a version that is supported. -/
def offer (s : Server) : Server :=
  if s.minor = 3 then
    match s.auth with
    | .none => ((s.writeU32 s.auth.code).flush env).startClientInit
    | .vnc => ((s.writeU32 s.auth.code).flush env).startAuthVnc env
    | .invalid => ((s.writeU32 AuthType.invalid.code).flush env).clientError
  else
    (((s.writeU8 1).writeU8 s.auth.code).readWhen .protocolClientAuth 1).flush env

def protocolVersion (version : List UInt8) (s : Server) : Server :=
  match scanVersion version with
  | none => s.clientError
  | some (major, minor) =>
    let s : Server := { s with major := major, minor := minor }
    if s.major ≠ 3 ∨ (s.minor ≠ 3 ∧ s.minor ≠ 4 ∧ s.minor ≠ 5 ∧ s.minor ≠ 7 ∧ s.minor ≠ 8) then
      ((s.writeU32 AuthType.invalid.code).flush env).clientError
    else if s.minor = 4 ∨ s.minor = 5 then ({ s with minor := 3 } : Server).offer env
    else s.offer env

/-- `protocol_client_init` as far as the connection goes: the share policy may end it. -/
def protocolClientInit (s : Server) : Server :=
  let answer := env s.clock
  let s : Server := { s with clock := s.clock + 1 }
  if answer.refused then s.disconnectStart
  else ((s.write answer.output).flush env).readWhen .protocolClientMsg 1

/-- `protocol_client_msg` as far as the connection goes, with the value it returns. -/
def protocolClientMsg (s : Server) : Server × ℕ :=
  let answer := env s.clock
  let s : Server := { s with clock := s.clock + 1 }
  let s := (s.write answer.output).flush env
  let s := if answer.refused then s.clientError else s
  if answer.ret = 0 then (s.readWhen .protocolClientMsg 1, 0) else (s, answer.ret)

/-- A call of `vs->read_handler`, with the value it returns. -/
def handle (data : List UInt8) (s : Server) : Server × ℕ :=
  match s.readHandler with
  | .protocolVersion => (s.protocolVersion env data, 0)
  | .protocolClientAuth => (s.protocolClientAuth env data, 0)
  | .protocolClientAuthVnc => (s.protocolClientAuthVnc w env data, 0)
  | .protocolClientInit => (s.protocolClientInit env, 0)
  | .protocolClientMsg => s.protocolClientMsg env

/-- At most `fuel` turns of the loop of `vnc_client_read`. -/
def readLoop : ℕ → Server → Server
  | 0, s => s
  | fuel + 1, s =>
    if s.readHandlerExpect ≤ s.input.length then
      let len := s.readHandlerExpect
      let (t, ret) := s.handle w env (s.input.take len)
      if ¬ t.csock then t
      else if ret = 0 then readLoop fuel { t with input := t.input.drop len }
      else readLoop fuel { t with readHandlerExpect := ret }
    else s

/-! ### Runs -/

/-- `vnc_connect` to a display. -/
def connect (password : Option CString) (expires : ℤ) (displayAuth : AuthType) (skipauth : Bool) :
    Server :=
  let s : Server :=
    { password := password, expires := expires, displayAuth := displayAuth, csock := true
      auth := if skipauth then .none else displayAuth, major := 0, minor := 0
      challenge := List.replicate 16 0, input := [], output := []
      readHandler := .protocolVersion, readHandlerExpect := 12
      sent := [], received := [], checks := [], clock := 0 }
  ((s.write (cstr "RFB 003.008" ++ [10])).flush env).readWhen .protocolVersion 12

/-- What happens between two calls from the main loop. -/
inductive Event
  /-- `vnc_client_read`, `recv` giving these bytes; none at the end of the stream or on an error. -/
  | read (data : List UInt8)
  /-- `vnc_client_write`. -/
  | writable
  /-- Output for the client that no message of it asked for. -/
  | output (data : List UInt8)
  /-- `vnc_disconnect_start`, for instance by another client that asks for exclusive access. -/
  | disconnect
  /-- `vnc_display_password`; without a password, `vnc_display_disable_login`. -/
  | password (password : Option CString)
  /-- `vnc_display_pw_expire`. -/
  | pwExpire (expires : ℤ)
  /-- `vnc_display_close` or `vnc_display_open`. -/
  | display (auth : AuthType)

/-- A closed connection takes part in nothing; the display goes on. -/
def step (fuel : ℕ) (s : Server) : Event → Server
  | .read [] => s.disconnectStart
  | .read (b :: data) =>
    if s.csock then
      readLoop w env fuel
        { s with input := s.input ++ b :: data, received := s.received ++ b :: data }
    else s
  | .writable => s.flush env
  | .output data => if s.csock then (s.write data).flush env else s
  | .disconnect => s.disconnectStart
  | .password password =>
    { s with
      password := password
      displayAuth := if s.displayAuth = .none then .vnc else s.displayAuth }
  | .pwExpire expires => { s with expires := expires }
  | .display auth => { s with displayAuth := auth }

/-- The events one after the other, the loop of each `vnc_client_read` being cut off after `fuel`
turns. -/
def run (fuel : ℕ) (s : Server) (events : List Event) : Server := events.foldl (step w env fuel) s

/-! ### What output leaves as it was -/

/-- The connection has only written to the client, asked the environment, logged calls or lost its
socket. -/
structure Keeps (s t : Server) : Prop where
  auth : t.auth = s.auth
  readHandler : t.readHandler = s.readHandler
  challenge : t.challenge = s.challenge
  input : t.input = s.input
  received : t.received = s.received
  checks : s.checks ⊆ t.checks
  written : s.sent ++ s.output <+: t.sent ++ t.output

variable {w} {s t u : Server}

lemma Keeps.refl (s : Server) : Keeps s s :=
  ⟨rfl, rfl, rfl, rfl, rfl, List.Subset.refl _, List.prefix_rfl⟩

lemma Keeps.trans (h : Keeps s t) (h' : Keeps t u) : Keeps s u where
  auth := h'.auth.trans h.auth
  readHandler := h'.readHandler.trans h.readHandler
  challenge := h'.challenge.trans h.challenge
  input := h'.input.trans h.input
  received := h'.received.trans h.received
  checks := List.Subset.trans h.checks h'.checks
  written := h.written.trans h'.written

lemma keeps_disconnectStart (s : Server) : Keeps s s.disconnectStart :=
  ⟨rfl, rfl, rfl, rfl, rfl, List.Subset.refl _, List.prefix_rfl⟩

lemma keeps_write (s : Server) (data : List UInt8) : Keeps s (s.write data) where
  auth := rfl
  readHandler := rfl
  challenge := rfl
  input := rfl
  received := rfl
  checks := List.Subset.refl _
  written := by
    rw [write, ← List.append_assoc]
    exact List.prefix_append _ _

lemma keeps_flush (s : Server) : Keeps s (s.flush env) := by
  unfold flush
  split_ifs with h
  · cases (env s.clock).sent with
    | failed => exact ⟨rfl, rfl, rfl, rfl, rfl, List.Subset.refl _, List.prefix_rfl⟩
    | again => exact ⟨rfl, rfl, rfl, rfl, rfl, List.Subset.refl _, List.prefix_rfl⟩
    | wrote n =>
      refine ⟨rfl, rfl, rfl, rfl, rfl, List.Subset.refl _, ?_⟩
      rw [List.append_assoc, List.take_append_drop]
  · exact Keeps.refl s

lemma keeps_writeReason (s : Server) : Keeps s s.writeReason := by
  unfold writeReason
  split_ifs
  · exact (keeps_write _ _).trans (keeps_write _ _)
  · exact Keeps.refl s

/-- A refusal writes and closes the connection. -/
lemma keeps_refuse (s : Server) (data : List UInt8) :
    Keeps s (s.write data).writeReason.clientError :=
  ((keeps_write _ _).trans (keeps_writeReason _)).trans (keeps_disconnectStart _)

lemma keeps_reject (s : Server) : Keeps s (s.reject env) :=
  (((keeps_write _ _).trans (keeps_writeReason _)).trans (keeps_flush env _)).trans
    (keeps_disconnectStart _)

/-! ### Authentication -/

/-- The connection needs no password, or its client has shown that it has it. -/
def Authenticated (w : ℕ) (s : Server) : Prop :=
  s.auth = .none ∨ ∃ c ∈ s.checks, c.Passed w s.received

/-- What holds of a connection of type `a` at each turn of the loop. -/
structure Sound (w : ℕ) (a : AuthType) (s : Server) : Prop where
  auth : s.auth = a
  authenticated : s.readHandler = .protocolClientInit ∨ s.readHandler = .protocolClientMsg →
    Authenticated w s
  challenge : s.readHandler = .protocolClientAuthVnc → s.challenge <:+: s.sent ++ s.output
  input : s.input <:+ s.received

variable {a : AuthType}

lemma Authenticated.keeps (h : Authenticated w s) (hk : Keeps s t) : Authenticated w t := by
  refine h.imp (fun hnone => hk.auth.trans hnone) ?_
  rintro ⟨c, hc, hpassed⟩
  exact ⟨c, hk.checks hc, hk.received ▸ hpassed⟩

lemma Sound.keeps (h : Sound w a s) (hk : Keeps s t) : Sound w a t where
  auth := hk.auth.trans h.auth
  authenticated := by
    rw [hk.readHandler]
    exact fun hr => (h.authenticated hr).keeps hk
  challenge := by
    rw [hk.readHandler, hk.challenge]
    exact fun hr => (h.challenge hr).trans hk.written.isInfix
  input := by
    rw [hk.input, hk.received]
    exact h.input

lemma Sound.startClientInit (h : Sound w a s) (ha : Authenticated w s) :
    Sound w a s.startClientInit :=
  ⟨h.auth, fun _ => ha, fun hr => absurd hr (by simp [Server.startClientInit, readWhen]), h.input⟩

lemma Sound.clientMsg (h : Sound w a s) (ha : Authenticated w s) :
    Sound w a (s.readWhen .protocolClientMsg 1) :=
  ⟨h.auth, fun _ => ha, fun hr => absurd hr (by simp [readWhen]), h.input⟩

/-- The challenge is written before its response is waited for. -/
lemma Sound.startAuthVnc (h : Sound w a s) : Sound w a (s.startAuthVnc env) := by
  unfold Server.startAuthVnc
  extract_lets c t
  have hflush : Keeps (c.write c.challenge) t := keeps_flush env _
  have hwritten : c.challenge <:+: (c.write c.challenge).sent ++ (c.write c.challenge).output := by
    rw [write, ← List.append_assoc]
    exact (List.suffix_append _ _).isInfix
  refine ⟨hflush.auth.trans h.auth, fun hr => by simp [readWhen] at hr, fun _ => ?_, ?_⟩
  · change t.challenge <:+: t.sent ++ t.output
    rw [hflush.challenge]
    exact hwritten.trans hflush.written.isInfix
  · change t.input <:+ t.received
    rw [hflush.input, hflush.received]
    exact h.input

/-! ### The handlers -/

lemma Sound.protocolClientAuthVnc {data : List UInt8} (h : Sound w a s)
    (hr : s.readHandler = .protocolClientAuthVnc) (hdata : data <:+: s.received) :
    Sound w a (s.protocolClientAuthVnc w env data) := by
  unfold Server.protocolClientAuthVnc
  extract_lets now check t
  have hk : Keeps s t :=
    ⟨rfl, rfl, rfl, rfl, rfl, List.subset_append_left _ _, List.prefix_rfl⟩
  have hcheck : check ∈ t.checks := List.mem_append_right _ (List.mem_singleton_self _)
  have ht : Sound w a t := h.keeps hk
  have hreject : Sound w a (t.reject env) := ht.keeps (keeps_reject env t)
  cases hpassword : t.password with
  | none => exact hreject
  | some password =>
    dsimp only
    split_ifs with hexpired hwrong
    · exact hreject
    · exact hreject
    · have hpassed : check.Passed w t.received :=
        ⟨password, hpassword, hexpired, (not_not.mp hwrong).symm, h.challenge hr, hdata⟩
      have ha : Authenticated w t := .inr ⟨check, hcheck, hpassed⟩
      have hout := (keeps_write t (beBytes 4 0)).trans (keeps_flush env _)
      exact (ht.keeps hout).startClientInit (ha.keeps hout)

lemma Sound.protocolClientAuth (h : Sound w a s) (data : List UInt8) :
    Sound w a (s.protocolClientAuth env data) := by
  unfold Server.protocolClientAuth
  by_cases hcode : (data.getD 0 0).toNat ≠ s.auth.code
  · rw [if_pos hcode]
    exact h.keeps (keeps_refuse s _)
  · rw [if_neg hcode]
    cases hauth : s.auth with
    | none =>
      dsimp only
      split_ifs
      · have hout := (keeps_write s (beBytes 4 0)).trans (keeps_flush env _)
        exact (h.keeps hout).startClientInit (Authenticated.keeps (.inl hauth) hout)
      · exact h.startClientInit (.inl hauth)
    | vnc => exact h.startAuthVnc env
    | invalid => exact h.keeps (keeps_refuse s _)

lemma Sound.offer (h : Sound w a s) : Sound w a (s.offer env) := by
  unfold Server.offer
  have hout : ∀ data, Keeps s ((s.write data).flush env) :=
    fun data => (keeps_write s data).trans (keeps_flush env _)
  split_ifs with hminor
  · cases hauth : s.auth with
    | none => exact (h.keeps (hout _)).startClientInit (Authenticated.keeps (.inl hauth) (hout _))
    | vnc => exact (h.keeps (hout _)).startAuthVnc env
    | invalid => exact h.keeps ((hout _).trans (keeps_disconnectStart _))
  · have hoffer := (keeps_write s [UInt8.ofNat 1]).trans (keeps_write _ [UInt8.ofNat s.auth.code])
    have hoffered := h.keeps hoffer
    refine Sound.keeps ?_ (keeps_flush env _)
    exact ⟨hoffered.auth, fun hr => by simp [readWhen] at hr, fun hr => by simp [readWhen] at hr,
      hoffered.input⟩

lemma Sound.protocolVersion (h : Sound w a s) (version : List UInt8) :
    Sound w a (s.protocolVersion env version) := by
  unfold Server.protocolVersion
  cases scanVersion version with
  | none => exact h.keeps (keeps_disconnectStart s)
  | some numbers =>
    obtain ⟨major, minor⟩ := numbers
    -- the version numbers play no part in what is sound
    have hset : ∀ major minor : ℤ, Sound w a { s with major := major, minor := minor } :=
      fun major minor => h.keeps ⟨rfl, rfl, rfl, rfl, rfl, List.Subset.refl _, List.prefix_rfl⟩
    dsimp only
    split_ifs
    · exact (hset major minor).keeps (((keeps_write _ _).trans (keeps_flush env _)).trans
        (keeps_disconnectStart _))
    · exact (hset major 3).offer env
    · exact (hset major minor).offer env

lemma Sound.protocolClientInit (h : Sound w a s) (hr : s.readHandler = .protocolClientInit) :
    Sound w a (s.protocolClientInit env) := by
  unfold Server.protocolClientInit
  extract_lets answer t
  have hk : Keeps s t := ⟨rfl, rfl, rfl, rfl, rfl, List.Subset.refl _, List.prefix_rfl⟩
  have ha : Authenticated w t := (h.authenticated (.inl hr)).keeps hk
  split_ifs
  · exact (h.keeps hk).keeps (keeps_disconnectStart t)
  · have hout := (keeps_write t answer.output).trans (keeps_flush env _)
    exact ((h.keeps hk).keeps hout).clientMsg (ha.keeps hout)

lemma Sound.protocolClientMsg (h : Sound w a s) (hr : s.readHandler = .protocolClientMsg) :
    Sound w a (s.protocolClientMsg env).1 := by
  unfold Server.protocolClientMsg
  extract_lets answer t u v
  have hk : Keeps s t := ⟨rfl, rfl, rfl, rfl, rfl, List.Subset.refl _, List.prefix_rfl⟩
  have hu : Keeps t u := (keeps_write t answer.output).trans (keeps_flush env _)
  have hv : Keeps u v := by
    change Keeps u (if answer.refused then u.clientError else u)
    split_ifs
    · exact keeps_disconnectStart u
    · exact Keeps.refl u
  have hall := (hk.trans hu).trans hv
  split_ifs
  · exact (h.keeps hall).clientMsg ((h.authenticated (.inr hr)).keeps hall)
  · exact h.keeps hall

lemma Sound.handle {data : List UInt8} (h : Sound w a s) (hdata : data <:+: s.received) :
    Sound w a (s.handle w env data).1 := by
  unfold Server.handle
  cases hr : s.readHandler with
  | protocolVersion => exact h.protocolVersion env data
  | protocolClientAuth => exact h.protocolClientAuth env data
  | protocolClientAuthVnc => exact h.protocolClientAuthVnc env hr hdata
  | protocolClientInit => exact h.protocolClientInit env hr
  | protocolClientMsg => exact h.protocolClientMsg env hr

/-! ### Every run -/

lemma Sound.readLoop (fuel : ℕ) (h : Sound w a s) : Sound w a (readLoop w env fuel s) := by
  induction fuel generalizing s with
  | zero => exact h
  | succ fuel ih =>
    rw [Server.readLoop]
    split_ifs with hlen
    · have hdata : s.input.take s.readHandlerExpect <:+: s.received :=
        (List.take_prefix _ _).isInfix.trans h.input.isInfix
      have ht := h.handle env hdata
      dsimp only
      split_ifs
      · exact ih ⟨ht.auth, ht.authenticated, ht.challenge, (List.drop_suffix _ _).trans ht.input⟩
      · exact ih ⟨ht.auth, ht.authenticated, ht.challenge, ht.input⟩
      · exact ht
    · exact h

/-- Bytes that arrive are put behind both what is unread and what has been received. -/
lemma Sound.receive (h : Sound w a s) (data : List UInt8) :
    Sound w a { s with input := s.input ++ data, received := s.received ++ data } where
  auth := h.auth
  authenticated hr := by
    refine (h.authenticated hr).imp id ?_
    rintro ⟨c, hc, password, hset, hunexpired, hresponse, hwritten, hdata⟩
    exact ⟨c, hc, password, hset, hunexpired, hresponse, hwritten,
      hdata.trans (List.prefix_append _ _).isInfix⟩
  challenge := h.challenge
  input := by
    obtain ⟨before, hbefore⟩ := h.input
    exact ⟨before, by rw [← hbefore, List.append_assoc]⟩

lemma Sound.step (fuel : ℕ) (h : Sound w a s) (e : Event) : Sound w a (step w env fuel s e) := by
  have hdisplay : ∀ password expires displayAuth,
      Sound w a { s with password := password, expires := expires, displayAuth := displayAuth } :=
    fun _ _ _ => h.keeps ⟨rfl, rfl, rfl, rfl, rfl, List.Subset.refl _, List.prefix_rfl⟩
  cases e with
  | read data =>
    cases data with
    | nil => exact h.keeps (keeps_disconnectStart s)
    | cons b data =>
      rw [Server.step]
      split_ifs
      · exact (h.receive (b :: data)).readLoop env fuel
      · exact h
  | writable => exact h.keeps (keeps_flush env s)
  | output data =>
    rw [Server.step]
    split_ifs
    · exact h.keeps ((keeps_write s data).trans (keeps_flush env _))
    · exact h
  | disconnect => exact h.keeps (keeps_disconnectStart s)
  | password password => exact hdisplay password s.expires _
  | pwExpire expires => exact hdisplay s.password expires s.displayAuth
  | display auth => exact hdisplay s.password s.expires auth

lemma sound_connect (w : ℕ) (password : Option CString) (expires : ℤ) (displayAuth : AuthType)
    (skipauth : Bool) :
    Sound w (if skipauth then .none else displayAuth)
      (connect env password expires displayAuth skipauth) := by
  unfold connect
  extract_lets s
  have hs : Sound w (if skipauth then .none else displayAuth) s :=
    ⟨rfl, fun hr => by simp [s] at hr, fun hr => by simp [s] at hr, List.suffix_rfl⟩
  have hout := hs.keeps ((keeps_write s (cstr "RFB 003.008" ++ [10])).trans (keeps_flush env _))
  exact ⟨hout.auth, fun hr => by simp [readWhen] at hr, fun hr => by simp [readWhen] at hr,
    hout.input⟩

/-- Whatever the client sends and however the password changes, the connection keeps the type it
was made with, and it reaches `protocol_client_init` only if that type is `VNC_AUTH_NONE` or the
client has returned the response of the password. -/
theorem protocolClientInit_run (w fuel : ℕ) (env : ℕ → Answer) (password : Option CString)
    (expires : ℤ) (displayAuth : AuthType) (skipauth : Bool) (events : List Event) :
    let s := run w env fuel (connect env password expires displayAuth skipauth) events
    s.auth = (if skipauth then .none else displayAuth) ∧
      (s.readHandler = .protocolClientInit ∨ s.readHandler = .protocolClientMsg →
        s.auth = .none ∨ ∃ c ∈ s.checks, c.Passed w s.received) := by
  have hrun : ∀ (es : List Event) (s : Server),
      Sound w (if skipauth then .none else displayAuth) s →
        Sound w (if skipauth then .none else displayAuth) (run w env fuel s es) := by
    intro es
    induction es with
    | nil => exact fun _ h => h
    | cons e es ih => exact fun s h => ih _ (h.step env fuel e)
  have h := hrun events _ (sound_connect env w password expires displayAuth skipauth)
  exact ⟨h.auth, h.authenticated⟩

/-- A client of version 3.3 that knows the password. -/
theorem protocolClientInit_run_secret :
    let env : ℕ → Answer := fun _ => ⟨.wrote 64, 5, UInt8.ofNat, false, [], 0⟩
    let challenge := (List.range 16).map UInt8.ofNat
    let s := run 64 env 3 (connect env (some (cstr "secret")) 9 .vnc false)
      [.read (cstr "RFB 003.003" ++ [10]), .read (response 64 (cstr "secret") challenge)]
    s.auth = .vnc ∧ (s.auth = .none ∨ ∃ c ∈ s.checks, c.Passed 64 s.received) := by
  intro env challenge s
  have h := protocolClientInit_run 64 3 env (some (cstr "secret")) 9 .vnc false
    [.read (cstr "RFB 003.003" ++ [10]), .read (response 64 (cstr "secret") challenge)]
  exact ⟨h.1, h.2 (.inl (by decide +kernel))⟩

end Server

end Limbo.Vnc.Authentication

-- The messages that enter the transcript of an engine. A message of the type its state waits
-- for is hashed first and processed afterwards, so one that is rejected has been hashed as well.
import MilliHttp.Tls.Handshake

open bytes method

namespace milli_http.tls

open crypto

/-- A message that was hashed, and whether it was accepted then. -/
structure Hashed where
  msg_type : HandshakeType
  message : Bytes
  accepted : Bool
  deriving DecidableEq, Repr

/-- The type of message a role waits for in a state. -/
def awaited : Role → HandshakeState → Option HandshakeType
  | .Client, .WaitServerHello => some .ServerHello
  | .Client, .WaitEncryptedExtensions => some .EncryptedExtensions
  | .Client, .WaitCertificate => some .Certificate
  | .Client, .WaitCertificateVerify => some .CertificateVerify
  | .Client, .WaitFinished => some .Finished
  | .Server, .WaitClientHello => some .ClientHello
  | .Server, .WaitClientFinished => some .Finished
  | _, _ => none

/-- The level a role expects its next message at. -/
def expected_level : Role → HandshakeState → Option Level
  | .Client => TlsEngine.expected_level_client
  | .Server => TlsEngine.expected_level_server

/-- How a role handles a message. -/
def role_message (X : Primitives) :
    Role → HandshakeType → Bytes → Bytes → Method TlsEngine Error Unit
  | .Client => TlsEngine.client_message X
  | .Server => TlsEngine.server_message X

namespace TlsEngine

/-- The messages `read_messages` hashes, in the order in which it comes to them. -/
def hashed_messages (X : Primitives) : Nat → Bytes → TlsEngine → List Hashed
  | 0, _, _ => []
  | fuel + 1, data, e =>
    match data with
    | [] => []
    | ty :: rest =>
      let msg_len := 4 + beNat (rest.take 3)
      if 4 ≤ data.length ∧ msg_len ≤ data.length then
        match HandshakeType.from_u8 ty with
        | none => []
        | some msg_type =>
          let message := data.take msg_len
          let hashed accepted :=
            if awaited e.role e.state = some msg_type then [{ msg_type, message, accepted }] else []
          match role_message X e.role msg_type message (message.drop 4) e with
          | (.error _, _) => hashed false
          | (.ok _, e') => hashed true ++ hashed_messages X fuel (data.drop msg_len) e'
      else []

/-- The messages a call of `read_handshake` hashes. -/
def hashed (X : Primitives) (level : Level) (data : Bytes) (e : TlsEngine) : List Hashed :=
  if expected_level e.role e.state = some level then hashed_messages X data.length data e else []

end TlsEngine

end milli_http.tls

-- The error values of the crate.
import Mathlib

namespace milli_http

/-- QUIC transport error codes (RFC 9000 §20). -/
inductive TransportError where
  | NoError
  | InternalError
  | ConnectionRefused
  | FlowControlError
  | StreamLimitError
  | StreamStateError
  | FinalSizeError
  | FrameEncodingError
  | TransportParameterError
  | ConnectionIdLimitError
  | ProtocolViolation
  | InvalidToken
  | ApplicationError
  | CryptoBufferExceeded
  | KeyUpdateError
  | AeadLimitReached
  | NoViablePath
  | VersionNegotiationError
  deriving DecidableEq, Repr

/-- HTTP/3 error codes (RFC 9114 §8.1). -/
inductive H3Error where
  | NoError
  | GeneralProtocolError
  | InternalError
  | StreamCreationError
  | ClosedCriticalStream
  | FrameUnexpected
  | FrameError
  | ExcessiveLoad
  | IdError
  | SettingsError
  | MissingSettings
  | RequestRejected
  | RequestCancelled
  | RequestIncomplete
  | MessageError
  | ConnectError
  | VersionFallback
  | QpackDecompressionFailed
  | QpackEncoderStreamError
  | QpackDecoderStreamError
  deriving DecidableEq, Repr

/-- HTTP/2 error codes (RFC 9113 §7). -/
inductive H2Error where
  | NoError
  | ProtocolError
  | InternalError
  | FlowControlError
  | SettingsTimeout
  | StreamClosed
  | FrameSizeError
  | RefusedStream
  | Cancel
  | CompressionError
  | ConnectError
  | EnhanceYourCalm
  | InadequateSecurity
  | Http11Required
  deriving DecidableEq, Repr

/-- The crate's error type. -/
inductive Error where
  | Transport (e : TransportError)
  | Http3 (e : H3Error)
  | Http2 (e : H2Error)
  | Crypto
  | Tls
  | BufferTooSmall (needed : Nat)
  | OutOfMemory
  | StreamLimitExhausted
  | Closed
  | WouldBlock
  | InvalidState
  | HandshakePoolExhausted
  | TooManyHeaders
  deriving DecidableEq, Repr

end milli_http

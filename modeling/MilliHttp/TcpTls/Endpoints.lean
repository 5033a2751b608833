-- A client and a server over TCP that evaluate, and the calls a handshake between them makes.
import MilliHttp.TcpTls.Steps
import MilliHttp.Standin

open bytes method

namespace milli_http.tcp_tls.endpoints

open crypto tls TlsConnection

variable (X : Primitives) (BUF : Nat)

/-- A client that pins nothing. -/
def client : TlsConnection X BUF :=
  new_client
    { server_name := ascii "a", alpn_protocols := [], transport_params := .default_params,
      pinned_certs := [] }
    (List.replicate 32 7) (List.replicate 32 9)

/-- A server with a certificate. -/
def server (cert_der : Bytes) : TlsConnection X BUF :=
  new_server
    { cert_der, private_key_der := List.replicate 32 5, alpn_protocols := [],
      transport_params := .default_params }
    (List.replicate 32 3) (List.replicate 32 4)

variable {X BUF}

/-- Moves the output of one side to the other, up to `size` bytes at once. -/
def deliver {BUF' : Nat} (size : Nat) (c : TlsConnection X BUF) (d : TlsConnection X BUF') :
    TlsConnection X BUF × List Op × TlsConnection X BUF' :=
  match c.poll_output size with
  | (none, c) => (c, [], d)
  | (some out, c) => (c, [.feed_data out], (d.feed_data out).2)

/-- What a server is called with in a handshake: the ClientHello arrives, it answers, and the
client's Finished arrives. -/
def server_ops {BUF' : Nat} (c : TlsConnection X BUF) (s : TlsConnection X BUF') : List Op :=
  let (c, hello, s) := deliver 4096 c s
  let (_, _, c) := deliver 4096 s c
  let (_, finished, _) := deliver 4096 c s
  hello ++ [.poll_output 4096] ++ finished

/-- What a client is called with: it sends its ClientHello, the server's answer arrives, and it sends
its Finished. -/
def client_ops {BUF' : Nat} (c : TlsConnection X BUF) (s : TlsConnection X BUF') : List Op :=
  let (c, _, s) := deliver 4096 c s
  let (_, answer, _) := deliver 4096 s c
  [.poll_output 4096] ++ answer ++ [.poll_output 4096]

/-- What a client is called with when the server puts its whole answer, ServerHello to Finished, into
one record in the clear. -/
def merged_ops {BUF' : Nat} (c : TlsConnection X BUF) (s : TlsConnection X BUF') : List Op :=
  let (_, _, s) := deliver 4096 c s
  let answer := s.engine.pending_write ++ s.engine.pending_write_hs
  [.poll_output 4096, .feed_data (encode_record_header .Handshake answer.length ++ answer)]

end milli_http.tcp_tls.endpoints

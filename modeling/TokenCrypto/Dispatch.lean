import TokenCrypto.Direct
import TokenCrypto.Verifier

/-!
# Dispatch

From a header and a key to what can work with both: a verifier for a signed token, a decrypter for
an encrypted one. What does not go together is refused before anything is computed.
-/

namespace TokenCrypto.Dispatch

/-- The verifier for a header's alg and a key. -/
def verifier (header : JwsHeader) (key : Key) : Except Error Verifier :=
  match header.algorithm.string?.bind SignatureAlgorithm.ofName? with
  | some algorithm => Verifier.bind algorithm key
  | none => reject (.unknownSignature header.algorithm.shown)

/-- The decrypter for a header's key management (alg), and a key. -/
def decrypter (header : JweHeader) (key : Key) (policy : Policy) : Except Error Direct :=
  if header.algorithm ≠ .string KeyManagement.direct.name then
    reject (.unknownKeyManagement header.algorithm.shown)
  else
    match key.secret? with
    | some _ => Direct.create key policy Codecs.standard
    | none => reject (.secretRequired KeyManagement.direct.name key.family)

end TokenCrypto.Dispatch

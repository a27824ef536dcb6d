import TokenCrypto.Log
import TokenCrypto.Proofs.Comparison
import TokenCrypto.Proofs.ContentEncryption.Authenticated
import TokenCrypto.Proofs.ContentEncryption.Inverse
import TokenCrypto.Proofs.Deflate.Cut
import TokenCrypto.Proofs.Derivation.Lifetime
import TokenCrypto.Proofs.Direct.Answers
import TokenCrypto.Proofs.Direct.Checks
import TokenCrypto.Proofs.Direct.Dispatch
import TokenCrypto.Proofs.Direct.Policy
import TokenCrypto.Proofs.Direct.Sizes
import TokenCrypto.Proofs.Direct.Tag
import TokenCrypto.Proofs.Header.Written
import TokenCrypto.Proofs.Secrecy
import TokenCrypto.Proofs.Text.Base64Url
import TokenCrypto.Proofs.Verifier.Verdict

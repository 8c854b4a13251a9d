import Redact.Settings.Read

/-! # Settings as a document

Every setting under the key that it is read from, in the order of the keys. -/

namespace Redact.Settings

def toEntries (s : Settings) : Entries :=
  [(.text "allowlist_strings", .list (s.allowlist.members.map .text)),
    (.text "enabled", .bool s.enabled),
    (.text "extra_sensitive_names", .list (s.extraNames.map .text)),
    (.text "opaque_min_length", .int s.tokenMinLength),
    (.text "opaque_tokens_enabled", .bool s.tokensEnabled),
    (.text "replacement", .text s.replacement)]

end Redact.Settings

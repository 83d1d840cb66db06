/-!
# Counter keys

Every pair of an identity and a service has one counter, kept under a key of three parts with
colons between them.
-/

namespace Turnstile

/-- The key of the counter for an identity on a service. -/
def counterKey (identity service : String) : String := "rl:" ++ identity ++ ":" ++ service

/-- The identity of a caller that is known by its address alone. -/
def addressIdentity (address : String) : String := "ip:" ++ address

end Turnstile

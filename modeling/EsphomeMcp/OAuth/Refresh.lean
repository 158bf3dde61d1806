import EsphomeMcp.OAuth.Identity

/-!
# Refreshing without a redirect

`translated_client_id_for_refresh`: the identity of a refresh token that carries none, re-derived
from the registered list alone.
-/

namespace EsphomeMcp.OAuth

open Py Py.Prog

section

variable [Runtime]

/-! ## Definitions -/

/-- The loop of `_non_loopback_origins` and of `stable_translation_origin`: the set of what is made
of the origins that are not loopback. -/
def collectOrigins {α : Type} [DecidableEq α] (make : Str × Str × ℕ → α) :
    List Str → Except PyError (List α)
  | [] => .ok []
  | uri :: uris => do
    let parsed ← parseUrl uri
    match parsed.hostname with
    | none => collectOrigins make uris
    | some hostname =>
      if isLoopbackHost hostname then collectOrigins make uris
      else do
        match ← normalizedOrigin uri with
        | none => collectOrigins make uris
        | some origin => return (← collectOrigins make uris).insert (make origin)

/-- `_non_loopback_origins`. -/
def nonLoopbackOrigins (redirectUris : List Str) : Except PyError (List (Str × Str × ℕ)) :=
  collectOrigins id redirectUris

/-- Some redirect has no host or a loopback one. -/
def anyLoopback : List Str → Except PyError Bool
  | [] => .ok false
  | uri :: uris => do
    let parsed ← parseUrl uri
    if parsed.hostname.all isLoopbackHost then return true else anyLoopback uris

/-- `_refresh_identity_is_reproducible`. -/
def refreshIdentityIsReproducible (redirectUris : List Str) : Except PyError Bool := do
  let origins ← nonLoopbackOrigins redirectUris
  if origins.length ≠ 1 then return false else return !(← anyLoopback redirectUris)

/-- `stable_translation_origin`. -/
def stableTranslationOrigin (registered : List Str) : Except PyError (Option Str) := do
  match ← collectOrigins canonicalOriginUrl registered with
  | [origin] => return some origin
  | _ => return none

/-- What the derivation yields: an origin or a `RefreshDisposition`. -/
inductive RefreshIdentity where
  | origin (s : Str)
  | passthrough
  | unreproducible
deriving DecidableEq

/-- `_stable_origin_or_unreproducible`. -/
def stableOriginOrUnreproducible (registered : List Str) : Except PyError RefreshIdentity := do
  match ← stableTranslationOrigin registered with
  | none => return .unreproducible
  | some stable => return .origin stable

/-- `matched`: which registered redirects share the client id's origin. -/
def matchedOrigins (client : ParseResult) (registered : List Str) : Except PyError (List Bool) :=
  registered.mapM fun uri => do
    let parsed ← parseUrl uri
    return parsed.scheme = client.scheme && lower parsed.netloc = lower client.netloc

/-- `translated_client_id_for_refresh`, once the registration is known. -/
def refreshIdentity (registered : List Str) (clientId : Str) : Except PyError RefreshIdentity := do
  if registered = [] then return .passthrough
  else if !(← refreshIdentityIsReproducible registered) then return .unreproducible
  else
    match urlparse clientId with
    | none => return .passthrough
    | some parsed =>
      let shared ← matchedOrigins parsed registered
      if shared.all id then return .passthrough
      else if shared.any id then return .unreproducible
      else stableOriginOrUnreproducible registered

/-- `translated_client_id_for_refresh`. -/
def translatedClientIdForRefresh {S : Signature}
    (fetchCimdRedirects : Str → Prog S OAuthError (Option (List Str))) (session : Bool)
    (dcrKey : Option Bytes) (clientId : Str) : Prog S OAuthError RefreshIdentity := do
  match ← ofExcept ((dcrRedirects dcrKey clientId).mapError .py) with
  | some registered => ofExcept ((refreshIdentity registered clientId).mapError .py)
  | none =>
    match urlparse clientId with
    | none => return .passthrough
    | some parsed =>
      if parsed.scheme = str "https" && session then
        match ← fetchCimdRedirects clientId with
        | some registered => ofExcept ((refreshIdentity registered clientId).mapError .py)
        | none => return .passthrough
      else return .passthrough

end

end EsphomeMcp.OAuth

import PullThrough.Config.Basic
import PullThrough.Config.Datum
import PullThrough.Toml.Document
/-!
Configurations out of documents.
-/
namespace PullThrough

open Datum in
def ServerConfig.shape : Datum.Shape where
  name := "ServerConfig"
  fields := [("bind_address", fits toText), ("port", fits (toUnsigned 16)),
    ("external_url", fits (toOption toText))]

open Datum in
def ServerConfig.ofDatum (d : Datum) : Except Misfit ServerConfig := do
  let row ← d.toRow shape
  return {
    bindAddress := ← row.need "bind_address" toText
    portNumber := ← row.need "port" (toUnsigned 16)
    externalUrl := ← row.getD "external_url" (toOption toText) none }

open Datum in
/-- The cache's only setting is its directory. -/
def Config.directoryOfDatum (d : Datum) : Except Misfit String := do
  let row ← d.toRow ⟨"CacheConfig", [("directory", fits toText)]⟩
  row.need "directory" toText

open Datum in
def OriginLogin.ofDatum (d : Datum) : Except Misfit OriginLogin := do
  let row ← d.toRow ⟨"RegistryAuth", [("username", fits toText), ("password", fits toText)]⟩
  return { username := ← row.need "username" toText, password := ← row.need "password" toText }

open Datum in
def OriginConfig.shape : Datum.Shape where
  name := "UpstreamConfig"
  fields := [("registry_url", fits toText), ("token_url", fits toText), ("service", fits toText),
    ("timeout_secs", fits (toUnsigned 64)), ("connect_timeout_secs", fits (toUnsigned 64)),
    ("insecure", fits toBool), ("auth", fits (toOption OriginLogin.ofDatum))]

open Datum in
def OriginConfig.ofDatum (d : Datum) : Except Misfit OriginConfig := do
  let row ← d.toRow shape
  let absent : OriginConfig := {}
  return {
    registryUrl := ← row.getD "registry_url" toText absent.registryUrl
    tokenUrl := ← row.getD "token_url" toText absent.tokenUrl
    service := ← row.getD "service" toText absent.service
    timeout := ← row.getD "timeout_secs" (toUnsigned 64) absent.timeout
    connectTimeout := ← row.getD "connect_timeout_secs" (toUnsigned 64) absent.connectTimeout
    insecure := ← row.getD "insecure" toBool absent.insecure
    login := ← row.getD "auth" (toOption OriginLogin.ofDatum) absent.login }

open Datum in
def AuthConfig.shape : Datum.Shape where
  name := "AuthConfig"
  fields := [("signing_secret", fits (toOption toText)), ("token_ttl_secs", fits (toUnsigned 64)),
    ("allow_anonymous", fits toBool), ("users", fits toTexts)]

open Datum in
def AuthConfig.ofDatum (d : Datum) : Except Misfit AuthConfig := do
  let row ← d.toRow shape
  let absent : AuthConfig := {}
  return {
    signingSecret := ← row.getD "signing_secret" (toOption toText) absent.signingSecret
    tokenTtl := ← row.getD "token_ttl_secs" (toUnsigned 64) absent.tokenTtl
    allowAnonymous := ← row.getD "allow_anonymous" toBool absent.allowAnonymous
    users := ← row.getD "users" toTexts absent.users }

namespace Config

open Datum in
def shape : Datum.Shape where
  name := "Config"
  fields := [("server", fits ServerConfig.ofDatum), ("cache", fits directoryOfDatum),
    ("upstream", fits OriginConfig.ofDatum), ("auth", fits AuthConfig.ofDatum)]

/-- A configuration out of plain data. -/
def ofDatum (d : Datum) : Except Misfit Config := do
  let row ← d.toRow shape
  return {
    server := ← row.need "server" ServerConfig.ofDatum
    cacheDirectory := ← row.need "cache" directoryOfDatum
    origin := ← row.need "upstream" OriginConfig.ofDatum
    auth := ← row.getD "auth" AuthConfig.ofDatum {} }

/-- A configuration out of the text of a TOML document. -/
def ofToml (text : String) : Except ConfigFault Config := do
  match Toml.parse? text.toList with
  | none => .error .badSyntax
  | some document =>
    match ofDatum document with
    | .error cause => .error (.misfit cause)
    | .ok config => do
      config.validate
      return config

/-- A configuration out of the octets of a file, which have to be text. -/
def ofFile (path : String) (content : Option Bytes) : Except ConfigFault Config :=
  match content.bind Bytes.text? with
  | none => .error (.unreadable path)
  | some text => ofToml text

end Config

end PullThrough

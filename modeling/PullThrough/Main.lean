import PullThrough.Config.Reader
/-!
The command line: reads a configuration, checks it and says where the proxy is reached.
-/
namespace PullThrough

/-- What is said of a proxy when it starts. -/
def Config.announcement (c : Config) : List String :=
  ["Cache directory: " ++ c.cacheDirectory,
    "Server endpoints:",
    "  Health: " ++ c.externalUrl ++ "/health",
    "  API: " ++ c.externalUrl ++ "/v2/",
    "  Token: " ++ c.externalUrl ++ "/\x7bgroup\x7d/authorize"]

/-- The configuration in a file, or the default one where no file is named. -/
def Config.load (file : Option String) : IO (Except ConfigFault Config) := do
  match file with
  | none => return .ok default
  | some path =>
    let content ← (some <$> IO.FS.readBinFile path) <|> pure none
    return ofFile path (content.map fun octets => octets.data.toList)

end PullThrough

open PullThrough in
/-- The configuration file may be named on the command line. -/
def main (args : List String) : IO UInt32 := do
  match (← Config.load args.head?).bind fun c => c.validate.map fun _ => c with
  | .ok c =>
    c.announcement.forM IO.println
    return 0
  | .error fault =>
    IO.eprintln (Failure.config fault).message
    return 1

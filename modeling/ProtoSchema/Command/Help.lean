import ProtoSchema.Command.Arguments

/-!
What the program says of itself and of its commands when it is asked for help.
-/

namespace ProtoSchema.Command.Scope

def lines : Scope → List String
  | program => [
    "Generate proto3 schemas from data-class declarations",
    "",
    "Usage: pojo2proto [OPTIONS] <COMMAND>",
    "",
    "Commands:",
    "  generate  Generate proto3 schema documents",
    "  check     Validate a pojo2proto.toml manifest",
    "  help      Print this message or the help of the given subcommand(s)",
    "",
    "Options:",
    "  -v, --verbose  Log at debug level unless RUST_LOG is set",
    "  -h, --help     Print help",
    "  -V, --version  Print version"]
  | generate => [
    "Generate proto3 schema documents",
    "",
    "Usage: pojo2proto generate [OPTIONS] --input <INPUT> --output <OUTPUT>",
    "",
    "Options:",
    "  -i, --input <INPUT>                Path to the declaration set (JSON)",
    "  -v, --verbose                      Log at debug level unless RUST_LOG is set",
    "  -o, --output <OUTPUT>              Output directory for generated schemas",
    "  -m, --manifest <MANIFEST>          Path to pojo2proto.toml manifest " ++
      "(default: ./pojo2proto.toml if present)",
    "  -p, --package <PACKAGE>            Schema package, overriding the manifest",
    "  -s, --single-file                  Emit a single aggregate schema document",
    "      --project-name <PROJECT_NAME>  Base name of the aggregate document, " ++
      "overriding the manifest",
    "  -h, --help                         Print help"]
  | check => [
    "Validate a pojo2proto.toml manifest",
    "",
    "Usage: pojo2proto check [OPTIONS]",
    "",
    "Options:",
    "  -m, --manifest <MANIFEST>  Path to pojo2proto.toml (default: ./pojo2proto.toml)",
    "  -v, --verbose              Log at debug level unless RUST_LOG is set",
    "  -h, --help                 Print help"]
  | help => [
    "Print this message or the help of the given subcommand(s)",
    "",
    "Usage: pojo2proto help [COMMAND]...",
    "",
    "Arguments:",
    "  [COMMAND]...  Print help for the subcommand(s)"]

end ProtoSchema.Command.Scope

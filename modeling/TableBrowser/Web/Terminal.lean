import TableBrowser.Json.Printer
import TableBrowser.Web.Server

/-!
# The terminal

What is shown and read at a terminal: the usage of the command line, the fault of
one that cannot be read, the address of a running server, and a request a line with
its response.
-/

namespace TableBrowser.Web

/-- One line for each option, with what it sets. -/
def usage : List Text :=
  ["Browse large tables page by page",
    "",
    "  -d, --database FILE         the database to browse; without it the demo tables",
    "      --demo                  put the demo tables into the database",
    "  -p, --port N                the port to listen on (3000)",
    "      --host HOST             the address to listen on (127.0.0.1)",
    "      --session-timeout N     minutes until an unused session ends (60)",
    "      --max-sessions N        sessions at the same time (10)",
    "      --initial-chunk-size N  rows a page until the rows are counted (500)",
    "      --chunk-size N          rows a page, always",
    "      --query-timeout N       seconds for a query, 0 for no limit (30)",
    "      --log-level LEVEL       trace, debug, info, warn or error (info)",
    "  -h, --help                  show this text",
    "  -V, --version               show the version"]

namespace ArgumentFault

def message : ArgumentFault → Text
  | .unknownArgument => "unexpected argument found"
  | .invalidValue => "a value is required but none was supplied"
  | .valueValidation => "invalid value"
  | .tooManyValues => "unexpected value found"
  | .argumentConflict => "an argument cannot be used multiple times"
  | .displayHelp => "help was asked for"
  | .displayVersion => "the version was asked for"

end ArgumentFault

/-- What a starting server tells of itself. -/
def Settings.announcement (settings : Settings) : List Text :=
  ["",
    "  rowscope Studio is running",
    "    Local:    " ++ settings.baseUrl,
    "    Database: " ++ settings.databaseLabel,
    "  Press Ctrl+C to stop",
    ""]

/-- Reads a request from a line: a method, a target and a JSON body, if there is
one, with a space behind the method and one behind the target. -/
def Request.ofLine? (line : Text) : Option Request :=
  match Text.splitOnce? ' ' (Text.trim line) with
  | none => none
  | some (method, rest) =>
    match Text.splitOnce? ' ' rest with
    | none => some ⟨.ofWord method, rest, none, []⟩
    | some (target, body) =>
      some ⟨.ofWord method, target, some "application/json", body⟩

/-- The status of a response and its body on one line. -/
def Response.line (response : Response) : Text :=
  match response.body? with
  | none => Text.ofNat response.status
  | some body => Text.ofNat response.status ++ " " ++ body.render

end TableBrowser.Web

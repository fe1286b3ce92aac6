import TableBrowser.Paging.Config
import TableBrowser.Web.CommandLine

/-!
# Settings of the server

What the options of a command line amount to.  Without a database file there is
nothing to browse but the demo tables.  The minutes of a session are turned into seconds
of 64 bits, and options with more minutes than fit amount to nothing.
-/

namespace TableBrowser.Web

open TableBrowser.Paging

structure Settings where
  host : Text
  port : Nat
  database? : Option Text
  demo : Bool
  /-- Seconds without a request after which a session ends. -/
  sessionTimeout : UInt64
  maxSessions : Nat
  paging : Config
  deriving DecidableEq

namespace Settings

/-- The settings of pages: a timeout of no seconds means no timeout. -/
def pagingSettings (options : Options) : List Setting :=
  [.initialSize options.initialSize] ++
    (options.fixedSize?.map Setting.fixedSize).toList ++
    [if options.queryTimeout = 0 then .noTimeout else .timeout (options.queryTimeout * 1000)]

/-- The seconds of a number of minutes, if they fit in a word. -/
def secondsOfMinutes? (minutes : UInt64) : Option UInt64 :=
  if minutes.toNat * 60 < UInt64.size then some (minutes * 60) else none

/-- The settings of options, unless the multiplication of the minutes overflows. -/
def ofOptions? (options : Options) : Option Settings :=
  (secondsOfMinutes? options.sessionMinutes).map fun seconds =>
    { host := options.host
      port := options.port
      database? := options.database?
      demo := options.demo || options.database?.isNone
      sessionTimeout := seconds
      maxSessions := options.maxSessions
      paging := Config.ofSettings (pagingSettings options) }

def listenAddress (settings : Settings) : Text :=
  settings.host ++ ":" ++ Text.ofNat settings.port

def baseUrl (settings : Settings) : Text :=
  "http://" ++ settings.listenAddress

/-- Where the database is, for people. -/
def databaseLabel (settings : Settings) : Text :=
  settings.database?.getD ":memory:"

end Settings

end TableBrowser.Web

/-!
# Page sizes

A browser asks for pages of a configured size until the first page reports how
many rows there are, and from then on for pages of an advised size.  A fixed size
takes the place of both.  Configurations are made by settings, and a setting
never makes a page size smaller than one row.
-/

namespace TableBrowser.Paging

structure Config where
  initialSize : Nat
  fixedSize? : Option Nat
  /-- How long the database may take for one page, in milliseconds. -/
  timeoutMillis? : Option Nat
  deriving DecidableEq

inductive Setting
  | initialSize (rows : Nat)
  | fixedSize (rows : Nat)
  | timeout (millis : Nat)
  | noTimeout
  deriving DecidableEq

namespace Config

def defaultInitialSize : Nat := 500

/-- Advised sizes and a limit of thirty seconds. -/
def standard : Config :=
  ⟨defaultInitialSize, none, some 30000⟩

def set (config : Config) : Setting → Config
  | .initialSize rows => { config with initialSize := max rows 1 }
  | .fixedSize rows => { config with fixedSize? := some (max rows 1) }
  | .timeout millis => { config with timeoutMillis? := some millis }
  | .noTimeout => { config with timeoutMillis? := none }

def ofSettings (settings : List Setting) : Config :=
  settings.foldl set standard

/-- The page size before a number of rows is known. -/
def startingSize (config : Config) : Nat :=
  config.fixedSize?.getD config.initialSize

/-- The limit in whole seconds, at least one. -/
def timeoutSeconds? (config : Config) : Option Nat :=
  config.timeoutMillis?.map fun millis => max (millis / 1000) 1

end Config

/-- The page size for a number of matching rows. -/
def advisedSize (total : Nat) : Nat :=
  if total < 1000 then 500
  else if total < 10000 then 2000
  else if total < 100000 then 5000
  else 10000

/-- The page size once a number of matching rows is known. -/
def Config.nextSize (config : Config) (total : Nat) : Nat :=
  config.fixedSize?.getD (advisedSize total)

end TableBrowser.Paging

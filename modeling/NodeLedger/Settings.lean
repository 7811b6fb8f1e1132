import NodeLedger.FileTree.Path
import NodeLedger.Text.UpperCase

/-!
# Settings

Settings come from the variables of the environment. A variable that is set to nothing counts as
set, except for the region.

- `Settings.ofEnvironment`: the settings that a list of variables asks for.
-/

namespace NodeLedger

/-- What the environment decides. -/
structure Settings where
  /-- The directory of the ledger file. -/
  ledgerDirectory : CodeText
  /-- The name of a log level, in upper case. -/
  logLevel : String
  /-- The service that tells the address of whoever asks. -/
  lookupUrl : String
  /-- The EC2 region. -/
  region : String
  deriving Repr, DecidableEq

/-- The value of a variable. -/
def valueOf? (environment : List (String × String)) (name : String) : Option String :=
  (environment.find? (·.1 == name)).map (·.2)

/-- The settings that the variables of an environment ask for. -/
def Settings.ofEnvironment (environment : List (String × String)) : Settings where
  ledgerDirectory := Path.tidy ((valueOf? environment "WNI_TRACKER_DIR").getD ".")
  logLevel := Text.upper ((valueOf? environment "WNI_LOG_LEVEL").getD "INFO")
  lookupUrl := (valueOf? environment "WNI_IP_LOOKUP_URL").getD "https://checkip.amazonaws.com"
  region :=
    (((valueOf? environment "AWS_REGION").filter (· != "")).or
      ((valueOf? environment "AWS_DEFAULT_REGION").filter (· != ""))).getD "us-east-1"

end NodeLedger

import NodeLedger.Text.CodeText

/-!
# Credentials of an instance

- `Credentials.text`: the command line of a remote desktop session, which is kept in a file of its
  own beside the ledger.
-/

namespace NodeLedger

/-- How a created instance is accessed. -/
structure Credentials where
  machine : CodeText
  address : CodeText
  password : CodeText
  user : CodeText
  deriving Repr, DecidableEq

/-- The user of an instance for which no other is known. -/
def Credentials.defaultUser : String := "core"

/-- The command line of a remote desktop session. -/
def Credentials.text (credentials : Credentials) : CodeText :=
  "xfreerdp /u:" ++ credentials.user ++ " /v:" ++ credentials.address ++ " /h:1080 /w:1920 "
    ++ "/p:'" ++ credentials.password ++ "'\n"

end NodeLedger

import NodeLedger.Text.CodeText

/-!
# Identifiers of groups

A cloud may create a group without saying how it is identified, and may answer a question for a group
without an identifier. Such a group goes by the null identifier.

- `GroupId`: the identifier of a group.
- `GroupId.label`: how messages name the group.
-/

namespace NodeLedger.Cloud

/-- The identifier of a group, as a cloud gives it; null if it gives none. -/
abbrev GroupId : Type := Option CodeText

/-- A group in messages. -/
def GroupId.label : GroupId → CodeText
  | some identifier => identifier
  | none => "None"

end NodeLedger.Cloud

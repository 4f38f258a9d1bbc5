import TypedJson.Schema.Basic

/-!
# Sample record types

Five record types that between them use every way to declare a field: plain, read from another key,
named like a keyword, optional, nested.
-/

namespace TypedJson.Schema.Samples

/-- A field that is read from the key of its own name. -/
def field (ident : String) (schema : Schema) : FieldName × Schema := (⟨ident, none⟩, schema)

/-- A field that is read from the key `key`. -/
def fieldAs (ident key : String) (schema : Schema) : FieldName × Schema :=
  (⟨ident, some key⟩, schema)

def user : Schema :=
  .struct "User" [
    field "id" .number,
    field "username" .string,
    field "is_banned" .boolean,
    field "role" (.choice (.text "admin") (.text "member") []),
    field "phone_numbers" (.array .string),
    field "ssn" (.option .string)]

def account : Schema :=
  .struct "Account" [
    field "id" .number,
    field "kind" (.text "admin"),
    field "location" (.pair .number .number),
    field "nickname" (.option .string)]

def attachment : Schema :=
  .struct "Attachment" [
    field "r#type" .string,
    fieldAs "content_type" "content-type" .string,
    fieldAs "is_inline" "isInline" (.option .boolean)]

def team : Schema :=
  .struct "Team" [
    field "members" (.array account),
    field "lead" (.option account)]

def event : Schema :=
  .struct "Event" [
    field "id" .number,
    field "kind" (.choice (.text "created") (.text "deleted") []),
    field "at" (.option .date),
    field "tags" (.set .string),
    field "counts" (.mapped Output.dictOfMap (.map .string .number)),
    field "flags" (.dict .boolean),
    field "parent" (.option .null),
    field "children" (.array (.pair .number .string))]

/-- The sample of a name. -/
def named? : String → Option Schema
  | "User" => some user
  | "Account" => some account
  | "Attachment" => some attachment
  | "Team" => some team
  | "Event" => some event
  | _ => none

end TypedJson.Schema.Samples

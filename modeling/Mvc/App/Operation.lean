import Mvc.Config

/-! # Operations on documents

An operation is announced when it starts, works for a while, and leaves a status line and a
message behind. Five user actions start one.
-/

namespace Mvc.App

/-- An operation on a document. -/
structure Operation where
  /-- The status line while it runs. -/
  started : String
  /-- How long it takes, in milliseconds. -/
  duration : Nat
  /-- The status line when it has finished. -/
  finished : String
  /-- What is reported when it is complete. -/
  completed : String

/-- What a test says that was given nothing to say. -/
def standardTestMessage : String := "Test action performed"

/-- What a test says: a text that it was given, unless that is empty. -/
def testMessage (data : Value) : String :=
  match data.asString? with
  | some text => if text.isEmpty then standardTestMessage else text
  | none => standardTestMessage

/-- The operation that a user action starts. -/
def Operation.ofAction? (work : WorkConfig) (name : String) (data : Value) : Option Operation :=
  match name with
  | "new" =>
    some ⟨"Creating new document...", work.create, "New document created",
      "New document created successfully"⟩
  | "open" =>
    some ⟨"Opening document...", work.opening, "Document opened", "Document opened successfully"⟩
  | "save" =>
    some ⟨"Saving document...", work.saving, "Document saved", "Document saved successfully"⟩
  | "test" =>
    some ⟨"Performing test action...", work.test, testMessage data, testMessage data⟩
  | "long" =>
    some ⟨"Performing long operation...", work.long, "Long operation completed",
      "Long operation completed"⟩
  | _ => none

end Mvc.App

import ContestPlatform.Content.Store
import ContestPlatform.Database.Call
import ContestPlatform.Program

/-!
# Services

A service operation is a program that reads the clock, draws identifiers, and calls the database and
the content store, one call at a time. It ends with a value or with a fault. There is no transaction
over the two stores, so the order of the calls is part of what an operation means.
-/

namespace ContestPlatform

/-- What a service operation may ask for. -/
inductive Call where
  /-- The present instant. -/
  | now
  /-- An identifier that was never used. -/
  | freshId
  | database (call : Database.Call)
  | content (call : Content.Call)
deriving DecidableEq

/-- The answer to what was asked for. -/
@[reducible] def Call.Answer : Call → Type
  | .now => Instant
  | .freshId => Uuid
  | .database call => call.Answer
  | .content call => call.Answer

/-- A program over the stores. -/
abbrev StoreProgram (α : Type) : Type :=
  Program Call Call.Answer α

/-- A service operation. -/
abbrev Service (α : Type) : Type :=
  ExceptT Fault StoreProgram α

namespace Service

/-- The present instant. -/
def now : Service Instant :=
  ExceptT.lift (Program.call Call.now)

/-- An identifier that was never used. -/
def freshId : Service Uuid :=
  ExceptT.lift (Program.call Call.freshId)

/-- Call the database. -/
def database (call : Database.Call) : Service call.Result :=
  ExceptT.mk (Program.call (Call.database call))

/-- Call the content store, and go on whether the call succeeds or not. -/
def attempt (call : Content.Call) : Service call.Answer :=
  ExceptT.lift (Program.call (Call.content call))

/-- Call the content store. -/
def content (call : Content.Call) : Service call.Result := do
  match ← attempt call with
  | .ok result => return result
  | .error fault => throw (.content fault)

/-- Refuse to go on unless something exists. -/
def found {α : Type} (fault : Fault) : Option α → Service α
  | some a => return a
  | none => throw fault

end Service

end ContestPlatform

import ContestPlatform.Content.FileStore
import ContestPlatform.Content.Memory
import ContestPlatform.Database.Column
import ContestPlatform.Http.Serve
import ContestPlatform.Service.Operation
import ContestPlatform.Service.Stores
import ContestPlatform.Session.Trouble

/-!
# Sessions

A session is a platform with stores of its own that is led from outside: its clock is set, its
identifiers may be chosen, rows and contents may be put in place and looked at, trouble may be
planned, and operations and requests are run one after another.
-/

namespace ContestPlatform

/-- A content store of a session. -/
inductive Shelf where
  | memory (contents : Content.Memory)
  | files (tree : Content.FileTree)

namespace Shelf

/-- Answer a call. -/
def answer (s : Shelf) (call : Content.Call) : call.Answer × Shelf :=
  match s with
  | .memory contents =>
    let (a, contents) := contents.answer call
    (a, .memory contents)
  | .files tree =>
    let (a, tree) := Content.FileStore.answer tree call
    (a, .files tree)

instance : ContentStore Shelf := ⟨answer⟩

/-- The number of keys, if the store counts them. -/
def size? : Shelf → Option Nat
  | .memory contents => some contents.size
  | .files _ => none

end Shelf

/-- A platform that is led from outside. -/
structure Session where
  stores : Stores Shelf
  /-- The trouble that is planned, at most one for each target. -/
  planned : List (Session.Target × Session.Trouble)

namespace Session

/-- A session whose stores are empty. -/
def start (now : Instant) (content : Shelf) : Session :=
  ⟨⟨now, .initial, .empty, content⟩, []⟩

/-- Set the clock. -/
def setClock (s : Session) (now : Instant) : Session :=
  { s with stores := { s.stores with now } }

/-- Choose the identifiers that are drawn next. -/
def chooseIds (s : Session) (ids : List Uuid) : Session :=
  { s with stores := { s.stores with ids := s.stores.ids.choose ids } }

/-- Plan trouble, in the place of what was planned for the same target. -/
def plan (s : Session) (target : Target) (trouble : Trouble) : Session :=
  { s with planned := (target, trouble) :: s.planned.filter (·.1 != target) }

/-- Add raw rows to a table, and tell whether all of them were added. -/
def seed (s : Session) (table : Database.Table) (rows : List Json) : Bool × Session :=
  let now := s.stores.now.stamp?.getD 0
  let (added, database) := Database.addRows now table s.stores.database rows
  (added, { s with stores := { s.stores with database } })

/-- Call the content store directly; planned trouble does not matter. -/
def callContent (s : Session) (call : Content.Call) : call.Answer × Session :=
  let (a, content) := s.stores.content.answer call
  (a, { s with stores := { s.stores with content } })

/-- Answer a call, unless planned trouble strikes it. -/
def answer (call : Call) (s : Session) : Option call.Answer × Session :=
  match (Target.ofCall? call).bind fun t => (s.planned.lookup t).map fun trouble => (t, trouble) with
  | some (target, trouble) =>
    (trouble.answer? target call, { s with planned := s.planned.filter (·.1 != target) })
  | none =>
    let (a, stores) := s.stores.answer call
    (some a, { s with stores })

/-- Run an operation. It has no outcome if one of its calls hangs. -/
def perform (s : Session) (op : Operation) : Option (Except Fault Json) × Session :=
  op.run.run.runUntil answer s

/-- Serve a request. If one of its calls hangs, the request times out. -/
def serve (s : Session) (r : Http.Request) : Http.Response × Session :=
  let (response, s) := (Http.serve r).runUntil answer s
  (response.getD Http.timedOut, s)

end Session

end ContestPlatform

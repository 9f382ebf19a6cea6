import SentenceForge.Grammar.Definition

/-!
# Building a grammar

Entries are taken in order. An entry for a name that was defined before
replaces the earlier definition in its place, with a warning; names are
the same when their case foldings are. What remains are the productions of
the last definition of each name, in the order in which the names were
first defined.

The start is `<start>`, in the spelling of its productions if it has any.
A grammar without a single production is refused. One without productions
for its start is not: it can be expanded from other names.
-/

namespace SentenceForge

/-- The name that sentences start from. -/
def startName : Text := "<start>".toList

/-- The productions that the bodies of a definition make. -/
def Production.ofBodies (name : Text) (bodies : List Text) :
    List Production :=
  bodies.map (Production.ofText name)

namespace Grammar

/-- The productions of the last definition of each name, given those of
the entries before. An empty entry stops it. -/
def collect (table : Table Text (List Production)) :
    List Entry → Logged (Table Text (List Production))
  | [] => .ok table
  | [] :: _ => .fail .emptyEntry
  | (name :: bodies) :: entries =>
    let key := Text.fold name
    let rest :=
      collect (table.put key (Production.ofBodies name bodies)) entries
    if table.has key then rest.noting (.redefined name) else rest

/-- The start of a grammar with these productions: the name of the first
that is a production of `<start>`. -/
def startOf (productions : List Production) : Text :=
  match productions.find? fun p => Text.fold p.name == Text.fold startName with
  | some p => p.name
  | none => startName

/-- The grammar with the productions of a table. -/
def ofTable (table : Table Text (List Production)) : Logged Grammar :=
  let productions := (table.toList.map Prod.snd).flatten
  if productions.isEmpty then .fail (.grammar (.noStart startName))
  else
    (Logged.ok (ofProductions (startOf productions) productions)).noting
      (.built table.size productions.length)

/-- **The grammar that entries make.** -/
def ofEntries (entries : List Entry) : Logged Grammar :=
  (collect .empty entries).andThen ofTable

/-- **The grammar that a text writes.** Every block is read before the
first is used, so a fault in any of them comes before all notices. -/
def ofText (text : Text) : Logged Grammar :=
  match Definition.ofText text with
  | .error fault => .fail (.grammar fault)
  | .ok definitions => ofEntries (definitions.map Definition.entry)

end Grammar

end SentenceForge

import DocQuery.Failure

namespace DocQuery

/-- Relations that are followed one after the other. -/
structure Chain where
  relations : List String
deriving DecidableEq, Repr

namespace Chain

/-- Reads a chain, without blanks around it. No relation may be empty. -/
def parse (raw : String) : Except RequestError Chain :=
  let relations := Text.split '.' (Text.trim raw)
  if "" ∈ relations then .error (.badChain raw) else .ok ⟨relations⟩

/-- Reads a comma list of chains. Empty items are left out. -/
def parseList (raw : String) : Except RequestError (List Chain) :=
  (Text.commaItems raw).mapM parse

/-- The number of relations. -/
def depth (chain : Chain) : Nat := chain.relations.length

/-- The text of a chain. -/
def text (chain : Chain) : String := Text.joinDots chain.relations

end Chain

end DocQuery

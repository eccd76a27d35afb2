import CatalogBroker.Catalog.Model
import CatalogBroker.Library.Descriptions
import CatalogBroker.Library.Listing
import CatalogBroker.Library.PercentEncoding

/-! RDF terms and quads as oxigraph hands them over, and the third-party text
functions behind resource IRIs.
-/

set_option autoImplicit false

namespace CatalogBroker

structure NamedNode where
  iri : String
  deriving DecidableEq, Repr

structure BlankNode where
  id : String
  deriving DecidableEq, Repr

structure Literal where
  value : String
  datatype : NamedNode
  language : Option String
  deriving DecidableEq, Repr

inductive NamedOrBlankNode where
  | namedNode (node : NamedNode)
  | blankNode (node : BlankNode)
  deriving DecidableEq, Repr

inductive Term where
  | namedNode (node : NamedNode)
  | blankNode (node : BlankNode)
  | literal (literal : Literal)
  deriving DecidableEq, Repr

inductive GraphName where
  | defaultGraph
  | namedNode (node : NamedNode)
  | blankNode (node : BlankNode)
  deriving DecidableEq, Repr

structure Quad where
  subject : NamedOrBlankNode
  predicate : NamedNode
  object : Term
  graphName : GraphName
  deriving DecidableEq, Repr

def xsdString : NamedNode := ⟨"http://www.w3.org/2001/XMLSchema#string"⟩
def xsdInteger : NamedNode := ⟨"http://www.w3.org/2001/XMLSchema#integer"⟩

def Literal.ofString (value : String) : Literal := ⟨value, xsdString, none⟩

/-- `Literal::from(index as i64)`: a vector's length never exceeds `isize::MAX`, so the
cast keeps the index. -/
def Literal.ofIndex (index : Nat) : Literal := ⟨toString index, xsdInteger, none⟩

/-- `StoreError::Backend`, the only error this store raises. -/
inductive StoreError where
  | backend (message : String)
  deriving DecidableEq, Repr

abbrev StoreResult (α : Type) := Except StoreError α

/-- The functions of third-party crates that IRIs are built from: `NamedNode::new` accepts or
refuses a string without altering it, and `urlencoding` undoes its own encoding, which
never contains a slash. How a term prints is only read by error texts. -/
structure IriText where
  accepts : String → Bool
  debugTerm : Term → String
  displayTerm : Term → String
  encode : String → String
  decode : String → Except String String
  decode_encode : ∀ text, decode (encode text) = .ok text
  encode_free : ∀ text, '/' ∉ (encode text).toList

/-- A scheme, a colon, and none of the characters (by code) that no IRI contains. Coarser than the real parser, which
theorems take as a parameter: only witnesses use this one. -/
def hasIriShape (value : String) : Bool :=
  match Library.Text.splitOnce value ':' with
  | none => false
  | some (scheme, rest) =>
    (scheme.toList.head?.any Char.isAlpha && scheme.toList.all fun c =>
      c.isAlphanum || c = '+' || c = '-' || c = '.') &&
    rest.toList.all fun c => 32 < c.toNat && c.toNat ∉ [34, 60, 62, 92, 94, 96, 123, 124, 125]

/-- Terms as N-Triples prints them, without escapes inside a literal. -/
def printTerm : Term → String
  | .namedNode node => "<" ++ node.iri ++ ">"
  | .blankNode node => "_:" ++ node.id
  | .literal literal => match literal.language with
    | some language => "\"" ++ literal.value ++ "\"@" ++ language
    | none =>
      if literal.datatype = xsdString then "\"" ++ literal.value ++ "\""
      else "\"" ++ literal.value ++ "\"^^<" ++ literal.datatype.iri ++ ">"

/-- Percent-encoding with the shape check above. -/
def IriText.urlencoding : IriText where
  accepts := hasIriShape
  debugTerm := printTerm
  displayTerm := printTerm
  encode := Library.PercentEncoding.encode
  decode := Library.PercentEncoding.decode
  decode_encode := Library.PercentEncoding.decode_encode
  encode_free := Library.PercentEncoding.slash_not_mem_encode

theorem IriText.encode_injective (text : IriText) : Function.Injective text.encode := by
  intro first second same
  have decoded := text.decode_encode first
  rw [same, text.decode_encode second] at decoded
  exact (Except.ok.inj decoded).symm

end CatalogBroker

/-!
# Properties

A grammar has eight properties that describe it in words, numbered from zero.
-/

namespace GoldTables

/-- The names of the properties, by index. -/
def propertyNames : Vector String 8 :=
  #v["Name", "Version", "Author", "About", "Character Set", "Character Mapping", "Generated By",
    "Generated Date"]

/-- The properties of a grammar, by index. -/
structure Properties where
  values : Vector String 8
  deriving DecidableEq

namespace Properties

/-- Properties that are all empty. -/
def empty : Properties := ⟨Vector.replicate 8 ""⟩

/-- Sets a property; an index without a property is ignored (`GrammarProperties.set`). -/
def set (properties : Properties) (index : UInt16) (value : String) : Properties :=
  if h : index.toNat < 8 then ⟨properties.values.set index.toNat value h⟩ else properties

/-- The property of an index. -/
def get? (properties : Properties) (index : UInt16) : Option String :=
  properties.values[index.toNat]?

/-- The properties with their names, in index order. -/
def toList (properties : Properties) : List (String × String) :=
  propertyNames.toList.zip properties.values.toList

/-- The name of the grammar. -/
def name (properties : Properties) : String := properties.values[0]

/-- The version of the grammar. -/
def version (properties : Properties) : String := properties.values[1]

/-- Who wrote the grammar. -/
def author (properties : Properties) : String := properties.values[2]

/-- What the grammar is about. -/
def about (properties : Properties) : String := properties.values[3]

/-- The character set of the grammar. -/
def characterSet (properties : Properties) : String := properties.values[4]

/-- How characters are mapped. -/
def characterMapping (properties : Properties) : String := properties.values[5]

/-- What generated the tables. -/
def generatedBy (properties : Properties) : String := properties.values[6]

/-- When the tables were generated. -/
def generatedDate (properties : Properties) : String := properties.values[7]

end Properties

end GoldTables

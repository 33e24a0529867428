import Stylebook.Table
import Stylebook.Text.Blank
import Stylebook.Text.Lowercase
import Stylebook.Text.Split

/-!
# What keywords stand for

A keyword table gives each keyword a number. Keywords are compared in lower case and without blanks
around them, and may carry the base name of the table in front: with the base name `TextAlignment`,
`center` and `TextAlignmentCenter` are the same keyword. An unknown keyword stands for the fallback.

Read as a bit mask, a row of keywords stands for the union of their numbers, and for the fallback if that
union is empty.
-/

set_option autoImplicit false

namespace Stylebook

/-- Numbers for keywords. -/
structure KeywordTable where
  /-- The numbers, by keyword in lower case. -/
  values : Table String Int64
  /-- The base name in lower case. -/
  base : Option String
  fallback : Int64

namespace KeywordTable

def fold (s : String) : String :=
  String.ofList (Text.lower s.toList)

/-- The table of a row of entries, where a later entry replaces an earlier one of the same keyword. -/
def ofList (entries : List (String × Int64)) (fallback : Int64) : KeywordTable :=
  ⟨Table.ofList (entries.map fun e => (fold e.1, e.2)), none, fallback⟩

def withBase (t : KeywordTable) (base : String) : KeywordTable :=
  { t with base := some (fold base) }

/-- The keyword without the base name in front of it. -/
def withoutBase? (t : KeywordTable) (keyword : List Char) : Option (List Char) :=
  t.base.bind fun base => base.toList.isPrefixOf? keyword

def lookup? (t : KeywordTable) (keyword : String) : Option Int64 :=
  let small := Text.lower (Text.trim keyword.toList)
  match t.values.get? (String.ofList small) with
  | some v => some v
  | none => (t.withoutBase? small).bind fun bare => t.values.get? (String.ofList bare)

/-- The number of one keyword, or the fallback. -/
def valueFor (t : KeywordTable) (keyword : String) : Int64 :=
  (t.lookup? keyword).getD t.fallback

/-- Characters between the keywords of a bit mask. -/
def isMaskSeparator (c : Char) : Bool :=
  c == ' ' || c == '|' || c == '-'

/-- The keywords of a bit mask. -/
def maskKeywords (text : String) : List String :=
  ((Text.splitWhere isMaskSeparator text.toList).filter fun k => !k.isEmpty).map String.ofList

/-- The union of the numbers of keywords, or the fallback if it is empty. -/
def maskFor (t : KeywordTable) (text : String) : Int64 :=
  let mask := (maskKeywords text).foldl (fun mask k => mask ||| t.valueFor k) 0
  if mask = 0 then t.fallback else mask

end KeywordTable

end Stylebook

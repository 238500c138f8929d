import ReactiveForm.Pattern.Folding
import ReactiveForm.Pattern.Table.Age
import ReactiveForm.Pattern.Table.Break
import ReactiveForm.Pattern.Table.Category
import ReactiveForm.Pattern.Table.Property
import ReactiveForm.Pattern.Table.Script

/-!
# Properties of characters

What the name of a property, a general category or a script stands for. Sets that Unicode derives
from others are given by a formula over the tables.
-/

set_option autoImplicit false

namespace ReactiveForm

/-- How a set of characters is put together from the tables. -/
inductive SetFormula where
  /-- All sets of a table that go by one of the names. -/
  | listed (table : List NamedSet) (names : List String)
  | codes (lines : List String)
  /-- The letters that have another case. -/
  | foldable
  | union (a b : SetFormula)
  | both (a b : SetFormula)
  | without (a b : SetFormula)

namespace SetFormula

def eval : SetFormula → CharSet
  | listed table names => .unions (names.filterMap (NamedSet.find? table))
  | codes lines => .ofNotation lines
  | foldable =>
    .ofRanges (CharSet.foldings.toList.flatMap fun (n, image) => [(n, n), (image, image)])
  | union a b => a.eval.union b.eval
  | both a b => a.eval.intersection b.eval
  | without a b => a.eval.difference b.eval

def categories (names : List String) : SetFormula := listed NamedSet.categories names

def properties (names : List String) : SetFormula := listed NamedSet.properties names

/-! ## General categories -/

def everything : SetFormula := codes ["0-10FFFF"]

/-- The code points without a meaning; the surrogates are no characters at all. -/
def unassigned : SetFormula :=
  ((NamedSet.categories.foldl (fun f s => f.without (codes s.codes)) everything).without
    (codes ["D800-DFFF"]))

def assigned : SetFormula := everything.without unassigned

/-- The groups of categories, by their names. -/
def categoryGroups : List (List String × SetFormula) := [
  (["any"], everything),
  (["ascii"], codes ["0-7F"]),
  (["assigned"], assigned),
  (["unassigned", "cn"], unassigned),
  (["casedletter", "lc"], categories ["lu", "ll", "lt"]),
  (["letter", "l"], categories ["lu", "ll", "lt", "lm", "lo"]),
  (["mark", "m", "combiningmark"], categories ["mn", "mc", "me"]),
  (["number", "n"], categories ["nd", "nl", "no"]),
  (["punctuation", "p", "punct"], categories ["pc", "pd", "ps", "pe", "pi", "pf", "po"]),
  (["symbol", "s"], categories ["sm", "sc", "sk", "so"]),
  (["separator", "z"], categories ["zs", "zl", "zp"]),
  (["other", "c"], (categories ["cc", "cf", "co"]).union unassigned)]

/-! ## Derived properties -/

def lowercase : SetFormula := (categories ["ll"]).union (properties ["otherlowercase"])

def uppercase : SetFormula := (categories ["lu"]).union (properties ["otheruppercase"])

def cased : SetFormula := (lowercase.union uppercase).union (categories ["lt"])

def alphabetic : SetFormula :=
  (cased.union (categories ["lm", "lo", "nl"])).union (properties ["otheralphabetic"])

def graphemeExtend : SetFormula :=
  (categories ["me", "mn"]).union (properties ["othergraphemeextend"])

def graphemeBase : SetFormula :=
  (assigned.without (categories ["cc", "cf", "co", "zl", "zp"])).without graphemeExtend

def caseIgnorable : SetFormula :=
  (categories ["mn", "me", "cf", "lm", "sk"]).union
    (listed NamedSet.wordBreaks ["midletter", "midnumlet", "singlequote"])

def patternMarks : SetFormula := properties ["patternsyntax", "patternwhitespace"]

def idStart : SetFormula :=
  ((categories ["lu", "ll", "lt", "lm", "lo", "nl"]).union (properties ["otheridstart"])).without
    patternMarks

def idContinue : SetFormula :=
  ((idStart.union (categories ["mn", "mc", "nd", "pc"])).union
    (properties ["otheridcontinue"])).without patternMarks

/-- Starts of identifiers that stay so when texts are normalized. -/
def xidStart : SetFormula :=
  idStart.without
    (codes ["37A E33 EB3 309B-309C FC5E-FC63 FDFA-FDFB FE70-FE7E/2 FF9E-FF9F"])

def xidContinue : SetFormula :=
  idContinue.without (codes ["37A 309B-309C FC5E-FC63 FDFA-FDFB FE70-FE7E/2"])

def defaultIgnorable : SetFormula :=
  ((properties ["otherdefaultignorablecodepoint", "variationselector"]).union
    (categories ["cf"])).without
      ((properties ["whitespace", "prependedconcatenationmark"]).union
        (codes ["FFF9-FFFB 13430-13440"]))

def changesWhenLowercased : SetFormula :=
  ((uppercase.union (categories ["lt"])).both foldable).union (codes ["130"])

/-- The small letters with a capital, and those that become several letters. -/
def changesWhenUppercased : SetFormula :=
  ((lowercase.union (categories ["lt"])).both foldable).union
    (codes ["131 149 1F0 587 1E96-1E9A 1F50-1F56/2 1FB2 1FB4 1FB6-1FB7 1FC2 1FC4 1FC6-1FC7 1FD2",
      "1FD6-1FD7 1FE2 1FE4 1FE6-1FE7 1FF2 1FF4 1FF6-1FF7 FB00-FB04 FB13-FB17"])

def changesWhenTitlecased : SetFormula :=
  let small := changesWhenUppercased.without (categories ["lt"])
  (small.without (codes ["10D0-10FA 10FD-10FF"])).union (codes ["1C4 1C7 1CA 1F1"])

def changesWhenCasefolded : SetFormula :=
  (changesWhenLowercased.without (codes ["13A0-13F5"])).union
    (codes ["B5 DF 149 17F 345 3C2 3D0-3D1 3D5-3D6 3F0-3F1 3F5 587 13F8-13FD 1C80-1C88 1E9A-1E9B",
      "1F80-1F87 1F90-1F97 1FA0-1FA7 1FB2-1FB4 1FB7 1FC2-1FC4 1FC7 1FF2-1FF4 1FF7 AB70-ABBF",
      "FB00-FB06 FB13-FB17"])

def changesWhenCasemapped : SetFormula :=
  (changesWhenLowercased.union changesWhenUppercased).union changesWhenTitlecased

/-- The derived properties, by their names. -/
def derived : List (List String × SetFormula) := [
  (["alphabetic", "alpha"], alphabetic),
  (["caseignorable", "ci"], caseIgnorable),
  (["cased"], cased),
  (["changeswhencasefolded", "cwcf"], changesWhenCasefolded),
  (["changeswhencasemapped", "cwcm"], changesWhenCasemapped),
  (["changeswhenlowercased", "cwl"], changesWhenLowercased),
  (["changeswhentitlecased", "cwt"], changesWhenTitlecased),
  (["changeswhenuppercased", "cwu"], changesWhenUppercased),
  (["defaultignorablecodepoint", "di"], defaultIgnorable),
  (["graphemebase", "grbase"], graphemeBase),
  (["graphemeextend", "grext"], graphemeExtend),
  (["idcontinue", "idc"], idContinue),
  (["idstart", "ids"], idStart),
  (["lowercase", "lower"], lowercase),
  (["math"], (categories ["sm"]).union (properties ["othermath"])),
  (["uppercase", "upper"], uppercase),
  (["xidcontinue", "xidc"], xidContinue),
  (["xidstart", "xids"], xidStart)]

/-! ## Breaks -/

def sentenceExtend : SetFormula :=
  (graphemeExtend.union (categories ["mc"])).union (codes ["200D"])

def sentenceLower : SetFormula :=
  (lowercase.without graphemeExtend).without (codes ["10D0-10FA 10FD-10FF"])

def sentenceUpper : SetFormula :=
  (uppercase.union (categories ["lt"])).without (codes ["1C90-1CBA 1CBD-1CBF"])

def derivedClusterBreaks : List (List String × SetFormula) := [
  (["extend", "ex"], graphemeExtend.union (properties ["emojimodifier"])),
  (["lvt"], (codes ["AC00-D7A3"]).without (listed NamedSet.clusterBreaks ["lv"]))]

def derivedWordBreaks : List (List String × SetFormula) := [
  (["extend"],
    (graphemeExtend.union (categories ["mc"])).union (properties ["emojimodifier"]))]

def derivedSentenceBreaks : List (List String × SetFormula) := [
  (["extend", "ex"], sentenceExtend),
  (["lower", "lo"], sentenceLower),
  (["upper", "up"], sentenceUpper),
  (["oletter", "le"],
    (((alphabetic.union (codes ["5F3"])).without sentenceLower).without sentenceUpper).without
      sentenceExtend)]

/-! ## Scripts -/

/-- What belongs to a script of its own. -/
def script (name : String) : SetFormula := listed NamedSet.scripts [name]

/-- What is written in a script. The characters without a script of their own are written in it
unless they are used by some scripts only. -/
def scriptExtension (names : List String) : SetFormula :=
  let own := listed NamedSet.scripts names
  if names.contains "common" || names.contains "inherited" then
    NamedSet.sharedByScripts.foldl (fun f s => f.without (codes s.codes)) own
  else own.union (listed NamedSet.sharedByScripts names)

/-! ## Names -/

/-- The formula of a name, in a table or else among the derived sets. -/
def named? (table : List NamedSet) (others : List (List String × SetFormula)) (name : String) :
    Option SetFormula :=
  match table.find? (·.names.contains name) with
  | some s => some (codes s.codes)
  | none => (others.find? (·.1.contains name)).map (·.2)

def category? (name : String) : Option SetFormula :=
  named? NamedSet.categories categoryGroups name

def script? (name : String) : Option SetFormula :=
  named? NamedSet.scripts [] name

def property? (name : String) : Option SetFormula :=
  named? NamedSet.properties derived name

/-- The code points that a version of Unicode and those before it have added. -/
def age? (name : String) : Option SetFormula :=
  let before := NamedSet.ages.takeWhile fun s => !s.names.contains name
  match NamedSet.ages.drop before.length with
  | [] => none
  | version :: _ => some (before.foldl (fun f s => f.union (codes s.codes)) (codes version.codes))

/-- What a name stands for by itself: a property, a category or a script. Three names are those of
a category although properties that are no sets go by them as well. -/
def byName? (name : String) : Option SetFormula :=
  (property? name).or ((category? name).or (script? name))

/-- What the value of a property stands for. -/
def byValue? (property value : String) : Option SetFormula :=
  match property with
  | "gc" | "generalcategory" => category? value
  | "sc" | "script" => script? value
  | "scx" | "scriptextensions" =>
    (NamedSet.scripts.find? (·.names.contains value)).map fun s => scriptExtension s.names
  | "age" => age? value
  | "gcb" | "graphemeclusterbreak" => named? NamedSet.clusterBreaks derivedClusterBreaks value
  | "wb" | "wordbreak" => named? NamedSet.wordBreaks derivedWordBreaks value
  | "sb" | "sentencebreak" => named? NamedSet.sentenceBreaks derivedSentenceBreaks value
  | _ => none

/-- A name in small letters, without blanks, hyphens, underscores and a leading `is`. Characters
beyond ASCII are passed over. -/
def plainName (text : List Char) : String :=
  let small := text.map Char.toLower
  let hasIs := ['i', 's'].isPrefixOf small
  let body := if hasIs then small.drop 2 else small
  let name := body.filter fun c => c.toNat < 128 && c != ' ' && c != '_' && c != '-'
  if hasIs && name = ['c'] then "isc" else String.ofList name

/-- The text split at the first place where a mark stands. -/
def splitAt? (mark : List Char) : List Char → Option (List Char × List Char)
  | [] => none
  | c :: rest =>
    if mark.isPrefixOf (c :: rest) then some ([], (c :: rest).drop mark.length)
    else (splitAt? mark rest).map fun (before, after) => (c :: before, after)

/-- The set that the text between the braces of a property stands for. A sign of inequality is read
as one of equality. -/
def read? (text : List Char) : Option SetFormula :=
  let parts := ((splitAt? ['!', '='] text).or (splitAt? [':'] text)).or (splitAt? ['='] text)
  match parts with
  | some (property, value) => byValue? (plainName property) (plainName value)
  | none => byName? (plainName text)

end SetFormula

namespace CharSet

/-- The characters of words: letters, marks, digits, connectors and the two that join letters. -/
def word : CharSet :=
  ((SetFormula.alphabetic.union (.categories ["mn", "mc", "me", "nd", "pc"])).union
    (.properties ["joincontrol"])).eval

def decimal : CharSet := (SetFormula.categories ["nd"]).eval

def blank : CharSet := (SetFormula.properties ["whitespace"]).eval

end CharSet

end ReactiveForm

import ResponseTypes.Text.WordCharacter

/-!
# Singular forms

The element type of a list is named after the response key of the list in the singular.  English has
words without a plural, words with a plural of their own, and endings; the endings are tried from
the most special to the most general one, and the first that fits decides.

A rule looks at the end of a word only.  Of what stands before the ending, a rule keeps either
nothing or the run of word characters up to the ending, so a key that is not a single word loses its
beginning.  The form that a rule builds is itself read once more: a dollar sign in it is taken for a
reference to a part of the word, by the name that follows.  Only a sign that is kept right before a
replacement can stand there, and no part has that name, so the sign and the replacement are lost.

## What is here

* `Singular.uncountable`, `Singular.irregular` — words that follow no rule.
* `Singular.Rule`, `Singular.Rule.fit?` and `Singular.rules` — the endings.
* `singular` — the singular form of a word.
-/

set_option autoImplicit false

namespace ResponseTypes
namespace Singular

/-! ## Words that follow no rule -/

/-- Words that stay as they are. -/
def uncountable : List String :=
  ["accommodation", "adulthood", "advertising", "advice", "aggression", "aid", "air", "aircraft",
    "alcohol", "anger", "applause", "arithmetic", "assistance", "athletics", "bacon", "baggage",
    "beef", "biology", "blood", "botany", "bread", "butter", "carbon", "cardboard", "cash", "chalk",
    "chaos", "chess", "crossroads", "countryside", "dancing", "deer", "dignity", "dirt", "dust",
    "economics", "education", "electricity", "engineering", "enjoyment", "envy", "equipment",
    "ethics", "evidence", "evolution", "fame", "fiction", "flour", "flu", "food", "fuel", "fun",
    "furniture", "gallows", "garbage", "garlic", "genetics", "gold", "golf", "gossip", "grammar",
    "gratitude", "grief", "guilt", "gymnastics", "happiness", "hardware", "harm", "hate", "hatred",
    "health", "heat", "help", "homework", "honesty", "honey", "hospitality", "housework", "humour",
    "hunger", "hydrogen", "ice", "importance", "inflation", "information", "innocence", "iron",
    "irony", "jam", "jewelry", "judo", "karate", "knowledge", "lack", "laughter", "lava", "leather",
    "leisure", "lightning", "linguine", "linguini", "linguistics", "literature", "litter",
    "livestock", "logic", "loneliness", "luck", "luggage", "macaroni", "machinery", "magic",
    "management", "mankind", "marble", "mathematics", "mayonnaise", "measles", "methane", "milk",
    "money", "mud", "music", "mumps", "nature", "news", "nitrogen", "nonsense", "nurture",
    "nutrition", "obedience", "obesity", "oxygen", "pasta", "patience", "physics", "poetry",
    "pollution", "poverty", "pride", "psychology", "publicity", "punctuation", "quartz", "racism",
    "relaxation", "reliability", "research", "respect", "revenge", "rice", "rubbish", "rum",
    "safety", "scenery", "seafood", "seaside", "series", "shame", "sheep", "shopping", "sleep",
    "smoke", "smoking", "snow", "soap", "software", "soil", "spaghetti", "species", "steam",
    "stuff", "stupidity", "sunshine", "symmetry", "tennis", "thirst", "thunder", "timber",
    "traffic", "transportation", "trust", "underwear", "unemployment", "unity", "validity", "veal",
    "vegetation", "vegetarianism", "vengeance", "violence", "vitality", "warmth", "wealth",
    "weather", "welfare", "wheat", "wildlife", "wisdom", "yoga", "zinc", "zoology"]

/-- Words with a plural of their own, and their singular forms. -/
def irregular : List (String × String) :=
  [("oxen", "ox"), ("boxes", "box"), ("men", "man"), ("women", "woman"), ("dice", "die"),
    ("yeses", "yes"), ("feet", "foot"), ("eaves", "eave"), ("geese", "goose"), ("teeth", "tooth"),
    ("quizzes", "quiz")]

/-! ## Rules -/

/-- A rule about words. -/
inductive Rule where
  /-- The word `word` becomes `result`. -/
  | whole (word result : String)
  /-- A word that starts with `start` becomes `result`. -/
  | beginning (start result : String)
  /-- A word with the ending `e` becomes `result`. -/
  | ending (e result : String)
  /-- A word with this ending becomes the run of word characters before it, and `replacement`. -/
  | run (e replacement : String)
  /-- A word with this ending, and before it a character that is none of `excluded`, becomes the run
  of word characters before that character, the character itself if it is kept and is no dollar
  sign, and `replacement`. -/
  | runAfter (excluded : String) (isKept : Bool) (e replacement : String)
deriving DecidableEq, Repr

/-- The word without the ending `e`, if it has that ending. -/
def before? (e : String) (word : List Char) : Option (List Char) :=
  if e.toList.isSuffixOf word then some (word.take (word.length - e.toList.length)) else none

/-- The run of word characters at the end of a text. -/
def lastRun (cs : List Char) : List Char :=
  (cs.reverse.takeWhile Text.isWordChar).reverse

/-- What a kept character and the replacement behind it come to: a dollar sign is taken for the
start of a reference that refers to nothing. -/
def keepBefore (c : Char) (replacement : List Char) : List Char :=
  if c = '$' then [] else c :: replacement

/-- The result of a rule on a word it fits. -/
def Rule.fit? (word : List Char) : Rule → Option (List Char)
  | .whole w result => if word = w.toList then some result.toList else none
  | .beginning start result => if start.toList.isPrefixOf word then some result.toList else none
  | .ending e result => (before? e word).map fun _ => result.toList
  | .run e replacement => (before? e word).map fun stem => lastRun stem ++ replacement.toList
  | .runAfter excluded isKept e replacement => do
    let stem ← before? e word
    let c ← stem.getLast?
    if excluded.toList.contains c then none
    else
      let ending := if isKept then keepBefore c replacement.toList else replacement.toList
      some (lastRun stem.dropLast ++ ending)

/-- The rules in the order in which they are tried.  Of two endings of which one is part of the
other, the longer one comes first. -/
def rules : List Rule :=
  [.ending "databases" "database", .ending "quizzes" "quiz", .ending "matrices" "matrix",
    .ending "vertices" "vertex", .ending "indices" "index", .beginning "oxen" "ox",
    .ending "aliases" "alias", .ending "alias" "alias", .ending "statuses" "status",
    .ending "status" "status", .ending "octopus" "octopus", .ending "octopi" "octopus",
    .ending "virus" "virus", .ending "viri" "virus", .whole "axis" "axis", .whole "axes" "axis",
    .ending "crisis" "crisis", .ending "crises" "crisis", .ending "testis" "testis",
    .ending "testes" "testis", .ending "shoes" "shoe", .ending "buses" "bus", .ending "bus" "bus",
    .ending "mice" "mouse", .ending "lice" "louse", .run "xes" "x", .run "ches" "ch",
    .run "sses" "ss", .run "shes" "sh", .ending "movies" "movie", .ending "series" "series",
    .runAfter "aeiouy" true "ies" "y", .run "quies" "quy", .run "lves" "f", .run "rves" "f",
    .run "tives" "", .run "hives" "", .runAfter "f" false "ves" "fe", .whole "analysis" "analysis",
    .whole "analyses" "analysis", .ending "analysis" "analysis", .ending "analyses" "analysis",
    .ending "basis" "basis", .ending "bases" "basis", .ending "diagnosis" "diagnosis",
    .ending "diagnoses" "diagnosis", .ending "parenthesis" "parenthesis",
    .ending "parentheses" "parenthesis", .ending "prognosis" "prognosis",
    .ending "prognoses" "prognosis", .ending "synopsis" "synopsis", .ending "synopses" "synopsis",
    .ending "thesis" "thesis", .ending "theses" "thesis", .run "ta" "um", .run "ia" "um",
    .run "oes" "", .ending "news" "news", .run "ss" "ss", .run "s" ""]

end Singular

/-- The singular form of a word. -/
def singular (word : String) : String :=
  if Singular.uncountable.contains word then word
  else
    match Singular.irregular.lookup word with
    | some s => s
    | none =>
      match Singular.rules.findSome? (Singular.Rule.fit? word.toList) with
      | some cs => String.ofList cs
      | none => word

end ResponseTypes

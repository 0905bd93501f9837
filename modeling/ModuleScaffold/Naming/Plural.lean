import ModuleScaffold.Text.Split
import ModuleScaffold.Text.Character

/-! # Plurals

The plural of an English word, by a list of words that have none, a list of irregular ones, and rules on the
end of a word. A rule keeps what it matches, which begins at the first letter of the last word. -/

namespace ModuleScaffold.Naming

/-- Words that are their own plural. -/
def uncountable : List String := [
  "accommodation", "adulthood", "advertising", "advice", "aggression", "aid", "air", "aircraft",
  "alcohol", "anger", "applause", "arithmetic", "assistance", "athletics", "bacon", "baggage", "beef",
  "biology", "blood", "botany", "bread", "butter", "carbon", "cardboard", "cash", "chalk", "chaos",
  "chess", "crossroads", "countryside", "dancing", "deer", "dignity", "dirt", "dust", "economics",
  "education", "electricity", "engineering", "enjoyment", "envy", "equipment", "ethics", "evidence",
  "evolution", "fame", "fiction", "flour", "flu", "food", "fuel", "fun", "furniture", "gallows",
  "garbage", "garlic", "genetics", "gold", "golf", "gossip", "grammar", "gratitude", "grief", "guilt",
  "gymnastics", "happiness", "hardware", "harm", "hate", "hatred", "health", "heat", "help", "homework",
  "honesty", "honey", "hospitality", "housework", "humour", "hunger", "hydrogen", "ice", "importance",
  "inflation", "information", "innocence", "iron", "irony", "jam", "jewelry", "judo", "karate",
  "knowledge", "lack", "laughter", "lava", "leather", "leisure", "lightning", "linguine", "linguini",
  "linguistics", "literature", "litter", "livestock", "logic", "loneliness", "luck", "luggage",
  "macaroni", "machinery", "magic", "management", "mankind", "marble", "mathematics", "mayonnaise",
  "measles", "methane", "milk", "money", "mud", "music", "mumps", "nature", "news", "nitrogen",
  "nonsense", "nurture", "nutrition", "obedience", "obesity", "oxygen", "pasta", "patience", "physics",
  "poetry", "pollution", "poverty", "pride", "psychology", "publicity", "punctuation", "quartz",
  "racism", "relaxation", "reliability", "research", "respect", "revenge", "rice", "rubbish", "rum",
  "safety", "scenery", "seafood", "seaside", "series", "shame", "sheep", "shopping", "sleep", "smoke",
  "smoking", "snow", "soap", "software", "soil", "spaghetti", "species", "steam", "stuff", "stupidity",
  "sunshine", "symmetry", "tennis", "thirst", "thunder", "timber", "traffic", "transportation", "trust",
  "underwear", "unemployment", "unity", "validity", "veal", "vegetation", "vegetarianism", "vengeance",
  "violence", "vitality", "warmth", "wealth", "weather", "welfare", "wheat", "wildlife", "wisdom",
  "yoga", "zinc", "zoology"]

/-- Words with plurals of their own. -/
def irregular : List (String × String) := [
  ("ox", "oxen"), ("man", "men"), ("woman", "women"), ("die", "dice"), ("yes", "yeses"),
  ("foot", "feet"), ("eave", "eaves"), ("goose", "geese"), ("tooth", "teeth"), ("quiz", "quizzes")]

/-- What may stand at one place of a stem. -/
inductive Letter where
  | is (c : Char)
  | oneOf (cs : List Char)
  | noneOf (cs : List Char)
  deriving DecidableEq, Repr

/-- Whether a character may stand there. -/
def Letter.admits : Letter → Char → Bool
  | is x, c => x == c
  | oneOf cs, c => cs.contains c
  | noneOf cs, c => !cs.contains c

/-- A rule on the end of a word: one of the stems, which is kept, and one of the endings, which the
replacement takes the place of. -/
structure Rule where
  stems : List (List Letter)
  endings : List (List Char)
  replacement : List Char

/-- The stem of these letters. -/
def stem (s : String) : List Letter := s.toList.map .is

/-- The place of one of these letters. -/
def oneOf (s : String) : List Letter := [.oneOf s.toList]

/-- The place of any character but these letters. -/
def noneOf (s : String) : List Letter := [.noneOf s.toList]

/-- A rule of its stems, endings and replacement. -/
def rule (stems : List (List Letter)) (endings : List String) (replacement : String) : Rule :=
  ⟨stems, endings.map String.toList, replacement.toList⟩

/-- The rules, of which the last that fits decides. -/
def rules : List Rule := [
  rule [[]] ["s"] "s",
  rule [noneOf "aeiou" ++ stem "ese"] [""] "",
  rule [stem "ax", stem "test"] ["is"] "es",
  rule [stem "alias", noneOf "aou" ++ stem "us", stem "tlas", stem "gas", stem "ris"] [""] "es",
  rule [stem "e" ++ oneOf "mn" ++ stem "u"] ["s", ""] "s",
  rule [noneOf "l" ++ stem "ias", oneOf "aeiou" ++ stem "las", oneOf "emjzr" ++ stem "as",
    oneOf "iu" ++ stem "am"] [""] "",
  rule [stem "alumn", stem "syllab", stem "octop", stem "vir", stem "radi", stem "nucle", stem "fung",
    stem "cact", stem "stimul", stem "termin", stem "bacill", stem "foc", stem "uter", stem "loc",
    stem "strat"] ["us", "i"] "i",
  rule [stem "alumn", stem "alg", stem "vertebr"] ["a", "ae"] "ae",
  rule [stem "seraph", stem "cherub"] ["im", ""] "im",
  rule [stem "her", stem "at", stem "gr"] ["o"] "oes",
  rule [stem "agend", stem "addend", stem "millenni", stem "dat", stem "extrem", stem "bacteri",
    stem "desiderat", stem "strat", stem "candelabr", stem "errat", stem "ov", stem "symposi",
    stem "curricul", stem "automat", stem "quor"] ["a", "um"] "a",
  rule [stem "apheli", stem "hyperbat", stem "periheli", stem "asyndet", stem "noumen", stem "phenomen",
    stem "criteri", stem "organ", stem "prolegomen", stem "hedr", stem "automat"] ["a", "on"] "a",
  rule [[]] ["sis"] "ses",
  rule [stem "kni", stem "wi", stem "li"] ["fe"] "ves",
  rule [stem "ar", stem "l", stem "ea", stem "eo", stem "oa", stem "hoo"] ["f"] "ves",
  rule [noneOf "aeiouy", stem "qu"] ["y"] "ies",
  rule [noneOf "ch" ++ oneOf "ieo" ++ oneOf "ln"] ["ey"] "ies",
  rule [stem "xes", stem "ches", stem "sses", stem "shes", stem "zzes"] [""] "",
  rule [stem "x", stem "ch", stem "ss", stem "sh", stem "zz"] [""] "es",
  rule [stem "matr", stem "cod", stem "mur", stem "sil", stem "vert", stem "ind", stem "append"]
    ["ix", "ex"] "ices",
  rule [stem "mice", stem "mouse", stem "lice", stem "louse"] [""] "ice",
  rule [stem "person", stem "people"] [""] "ople",
  rule [stem "child"] ["ren", ""] "ren",
  rule [stem "eaux"] [""] ""]

/-- The text behind the letters, when it begins with such. -/
def afterLetters? : List Letter → List Char → Option (List Char)
  | [], s => some s
  | _ :: _, [] => none
  | l :: ls, c :: rest => if l.admits c then afterLetters? ls rest else none

/-- What a rule keeps of a word that is given last character first: the stem and the run of word characters
before it, again last character first. -/
def kept? (letters : List Letter) (ending reversed : List Char) : Option (List Char) :=
  match Text.after? ending.reverse reversed with
  | none => none
  | some body =>
    match afterLetters? letters.reverse body with
    | none => none
    | some before => some (body.take letters.length ++ before.takeWhile Text.isWord)

/-- What a rule makes of a word. -/
def Rule.replace? (r : Rule) (word : List Char) : Option (List Char) :=
  let fits := r.stems.flatMap fun letters => r.endings.filterMap fun ending =>
    kept? letters ending word.reverse
  fits.head?.map fun kept => kept.reverse ++ r.replacement

/-- The plural of a word. -/
def plural (word : String) : String :=
  if word ∈ uncountable then word
  else
    match irregular.lookup word with
    | some other => other
    | none =>
      match rules.reverse.findSome? (·.replace? word.toList) with
      | some other => String.ofList other
      | none => word ++ "s"

end ModuleScaffold.Naming

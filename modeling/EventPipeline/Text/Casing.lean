import EventPipeline.Text.CaseTable

/-!
# Upper and lower case

Case mappings by full Unicode rules: a character may turn into several, and a capital sigma at the
end of a word turns into the final form.
-/

namespace EventPipeline

namespace Symbol

/-- The image of a symbol: its listed expansion, or its simple mapping. -/
private def mapCase (rows : CaseRows) (expansions : List (Nat × List Nat)) (s : Symbol) : Text :=
  match expansions.lookup s.code with
  | some codes => codes.map ofCode
  | none => [ofCode (rows.apply s.code)]

/-- The upper case of a symbol. -/
def upper : Symbol → Text :=
  mapCase upperRows upperExpansions

/-- The lower case of a symbol that is no sigma at the end of a word. -/
def lower : Symbol → Text :=
  mapCase lowerRows lowerExpansions

/-- A letter with case that the sigma rule sees. -/
def isCased (s : Symbol) : Bool :=
  casedRanges.contains s.code

/-- A sign that the sigma rule skips. -/
def isCaseIgnorable (s : Symbol) : Bool :=
  caseIgnorableRanges.contains s.code

end Symbol

namespace Text

/-- The first symbol that the sigma rule does not skip is cased. -/
def meetsCased (t : Text) : Bool :=
  match t.dropWhile Symbol.isCaseIgnorable with
  | [] => false
  | c :: _ => c.isCased

/-- The text in upper case. -/
def upper (t : Text) : Text :=
  t.flatMap Symbol.upper

/-- Lower case of a text that follows the reversed text `before`. -/
private def lowerAfter (before : Text) : Text → Text
  | [] => []
  | c :: t =>
    let image := match c with
      | .char 'Σ' => if meetsCased before && !meetsCased t then ofChar 'ς' else ofChar 'σ'
      | _ => c.lower
    image ++ lowerAfter (c :: before) t

/-- The text in lower case. -/
def lower (t : Text) : Text :=
  lowerAfter [] t

example : upper "straße ﬁ" = "STRASSE FI" := by decide
example : lower "ΣΑΣ ΑΣ." = "σας ας." := by decide

end Text

end EventPipeline

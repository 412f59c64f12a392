import EventPipeline.Proofs.Document.Refusals
import EventPipeline.Proofs.Files.Frame
import EventPipeline.Proofs.Text.Utf8

/-!
# Documents in files

A document that is read from a file is the document itself. Reading a file turns each of its line ends, a carriage
return, a line feed or a pair of them, into a line feed; a document is cut into lines at those and at some more
separators, and a pair is one separator there too. So a text has the same lines before and after it has been read
(`documentLines_foldLineEnds`), whatever separators it mixes, and every fault keeps its number.
-/

namespace EventPipeline

namespace Document

/-- **Reading a file keeps the lines.** The cases are those of the line ends of a file. -/
theorem documentLines_foldLineEnds (t : Text) :
    Text.documentLines (Text.foldLineEnds t) = Text.documentLines t := by
  have hfeed : ∀ u : Text, Text.documentLines (.char '\n' :: u) = [] :: Text.documentLines u :=
    fun u => documentLines_end rfl fun _ h => nomatch h
  induction t using Text.foldLineEnds.induct with
  | case1 => rfl
  | case2 t ih =>
    -- a pair of line ends is one separator in both
    rw [Text.foldLineEnds, hfeed, ih, Text.documentLines]
  | case3 t hpair ih =>
    have halone : Text.documentLines (.char '\r' :: t) = [] :: Text.documentLines t :=
      documentLines_end rfl fun u _ hu => hpair u hu
    rw [Text.foldLineEnds, hfeed, ih, halone]
    exact hpair
  | case4 c t hpair hreturn ih =>
    have hkept : Text.foldLineEnds (c :: t) = c :: Text.foldLineEnds t := by
      rw [Text.foldLineEnds]
      · exact hpair
      · exact hreturn
    rw [hkept]
    by_cases hend : c.endsLine = true
    · rw [documentLines_end hend fun _ hc => absurd hc hreturn, documentLines_end hend fun _ hc => absurd hc hreturn, ih]
    · rw [documentLines_cons hend, documentLines_cons hend, ih]

theorem directives_foldLineEnds (t : Text) : directives t.foldLineEnds = directives t := by
  rw [directives, documentLines_foldLineEnds, directives]

/-! ### Compiling a file -/

variable {path : Path} {fs : FileTree} {t : Text}

/-- A file is compiled as its text is. -/
theorem compileFile_of_node? (now : Int) (settings : Option Settings) (h : fs.node? path = some (.file t)) :
    compileFile now settings path fs = compile now settings t := by
  have hread : (FileTree.read path).run.run fs = (.ok t, fs) := FileTree.perform_read h
  rw [compileFile, hread]
  change compile now settings t.foldLineEnds = compile now settings t
  rw [compile, directives_foldLineEnds, compile]

/-- **A document in a file is the document.** The file holds the UTF-8 form of a text, whatever line ends the text
mixes. The lines that are read are those of the text, and compiling the file gives the definition that compiling the
text gives, or the same failure; and that failure has the number and the text of a line, unless the first fault of the
document is a sign that is a digit and no decimal one where a number could start. -/
theorem compileFile_agrees (now : Int) (settings : Option Settings) {bytes : List UInt8}
    (hbytes : Text.encode t = .ok bytes) (hfile : fs.node? path = some (.file (Text.decode bytes))) :
    compileFile now settings path fs = compile now settings t ∧
      directives (Text.decode bytes).foldLineEnds = directives t ∧
      (((∃ p, compileFile now settings path fs = .ok p ∧ compile now settings t = .ok p) ∨
          ∃ f, compileFile now settings path fs = .error f ∧ compile now settings t = .error f ∧ NamesLine t f) ↔
        ¬ BreaksAtDigit t) := by
  rw [Text.decode_encode hbytes] at hfile ⊢
  have hsame := compileFile_of_node? now settings hfile
  refine ⟨hsame, directives_foldLineEnds t, ?_⟩
  rw [hsame]
  constructor
  · rintro h hdigit
    have hbroken : compile now settings t = .error (.plain .assertion []) := compile_error_iff.2 hdigit.failure
    rcases h with ⟨p, hp, -⟩ | ⟨f, hf, -, index, raw, message, details, cause, -, rfl⟩
    · cases hp.symm.trans hbroken
    · cases hf.symm.trans hbroken
  · intro hdigit
    cases hc : compile now settings t with
    | ok p => exact .inl ⟨p, rfl, rfl⟩
    | error f => exact .inr ⟨f, rfl, rfl, directives_namesLine (compile_error_iff.1 hc) hdigit⟩

/-- The files below a working directory with one document in it. -/
private def oneDocument (content : Text) : FileTree := ⟨"/w", [(["p"], .file content)]⟩

/-- A faulty line after a carriage return, a pair, a line feed and a carriage return is the fifth one. -/
theorem compileFile_agrees_mixed :
    compileFile 0 none ⟨[], ["p"]⟩ (oneDocument "# é\r\r\n\n\rnonsense") =
      .error (Fault.unreadable.toFailure 5 "nonsense") := by
  have hbytes : Text.encode "# é\r\r\n\n\rnonsense" =
      .ok [0x23, 0x20, 0xC3, 0xA9, 0x0D, 0x0D, 0x0A, 0x0A, 0x0D, 0x6E, 0x6F, 0x6E, 0x73, 0x65, 0x6E, 0x73, 0x65] := by rfl
  have hfile : (oneDocument "# é\r\r\n\n\rnonsense").node? ⟨[], ["p"]⟩ =
      some (.file (Text.decode [0x23, 0x20, 0xC3, 0xA9, 0x0D, 0x0D, 0x0A, 0x0A, 0x0D, 0x6E, 0x6F, 0x6E, 0x73, 0x65,
        0x6E, 0x73, 0x65])) := by rfl
  exact (compileFile_agrees 0 none hbytes hfile).1

/-- A superscript is a digit that starts no number, in a file too. -/
theorem superscript_unnamed_in_file :
    ¬ ((∃ p, compileFile 0 none ⟨[], ["p"]⟩ (oneDocument "filter(²)") = .ok p ∧ compile 0 none "filter(²)" = .ok p) ∨
      ∃ f, compileFile 0 none ⟨[], ["p"]⟩ (oneDocument "filter(²)") = .error f ∧
        compile 0 none "filter(²)" = .error f ∧ NamesLine "filter(²)" f) := by
  have h : compile 0 none "filter(²)" = .error (.plain .assertion []) := by rfl
  rintro (⟨p, -, hp⟩ | ⟨f, -, hf, index, raw, message, details, cause, -, rfl⟩)
  · cases hp.symm.trans h
  · cases hf.symm.trans h

end Document

end EventPipeline

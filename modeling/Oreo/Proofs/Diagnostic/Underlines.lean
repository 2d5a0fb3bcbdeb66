import Oreo.Proofs.Parse.Errors

/-!
# Underlines

A diagnostic shows one line and marks a part of it: a run of tildes or dashes leads in, and carets
stand below what is wrong. Each kind of fault counts its marks in its own way, and yet they all fit:
at most one mark stands beyond the text, where something is missing behind it. For one kind this
holds only because of where its text comes from: a switch is shown with both its words, so five
carets always have room.
-/

namespace Oreo

namespace Excerpt

/-- A run of a character is as long as it was asked to be. -/
@[simp] theorem length_run (character : Char) (count : Nat) :
    (run character count).length = count := by
  simp [run]

/-- The marks below a line: a run of tildes or of dashes, and carets behind it, not more than one
of them beyond the text. -/
structure Underlined (excerpt : Excerpt) : Prop where
  /-- There is a lead-in, maybe of no marks, and at least one caret. -/
  marks : ∃ mark lead carets, (mark = '~' ∨ mark = '-') ∧ 1 ≤ carets ∧
    excerpt.underline = run mark lead ++ run '^' carets
  /-- The marks stand below the text, but for one at most. -/
  fits : excerpt.underline.length ≤ excerpt.text.length + 1

/-- Carets behind a lead-in underline a text if they have room below it. -/
theorem underlined_of_runs {excerpt : Excerpt} (mark : Char) (lead carets : Nat)
    (known : mark = '~' ∨ mark = '-') (some : 1 ≤ carets)
    (marks : excerpt.underline = run mark lead ++ run '^' carets)
    (room : lead + carets ≤ excerpt.text.length + 1) : excerpt.Underlined where
  marks := ⟨mark, lead, carets, known, some, marks⟩
  fits := by
    rw [marks, String.length_append, length_run, length_run]
    exact room

/-- The same for marks that are set behind tildes. -/
theorem underlined_marked {line : UInt32} {lead marks : Nat} {text : String}
    (room : lead + max marks 1 ≤ text.length + 1) : (marked line text lead marks).Underlined :=
  underlined_of_runs '~' lead (max marks 1) (.inl rfl) (Nat.le_max_right marks 1) rfl room

end Excerpt

open Excerpt

/-- The marks of a lexical fault fit. -/
theorem ScanFault.underlined_excerpt (fault : ScanFault) (line : UInt32) :
    (fault.excerpt line).Underlined := by
  cases fault with
  | unterminatedString quote content =>
    exact underlined_of_runs '-' (preview quote content).length 1 (.inr rfl) (Nat.le_refl 1) rfl
      (Nat.le_refl _)
  | invalidBinary =>
    have room : 2 + 1 ≤ "0b".length + 1 := by decide
    exact underlined_of_runs '-' 2 1 (.inr rfl) (by decide) rfl room
  | unexpectedCharacter character =>
    exact underlined_of_runs '~' 0 1 (.inl rfl) (by decide) rfl (by omega)
  | unterminatedComment => exact underlined_marked (by decide)

namespace ParseFault

/-- A switch is shown with at least five characters. Other faults show any text. -/
def ShowsSwitch : ParseFault → Prop
  | .nonCaseInSwitch shown => 5 ≤ shown.length
  | _ => True

/-- The marks of a grammatical fault fit. -/
theorem underlined_excerpt {fault : ParseFault} (shows : fault.ShowsSwitch) (line : UInt32) :
    (fault.excerpt line).Underlined := by
  have ofFound (context : Construct) (found : Option String) :
      (excerptFound line context found).Underlined := by
    refine underlined_marked ?_
    rw [String.length_append]
    omega
  cases fault with
  | expectedKind expected context found => exact ofFound context found
  | expectedToken expected context found => exact ofFound context found
  | unexpectedToken context found => exact ofFound context found
  | unexpectedKeyword keyword =>
    exact underlined_of_runs '~' 0 1 (.inl rfl) (by decide) rfl (by omega)
  | unclosedBracket bracket context found =>
    have room : 4 + max 1 1 ≤ (bracket.opener.text ++ "...").length + 1 := by
      cases bracket <;> decide
    cases context with
    | block => exact underlined_marked (by decide)
    | _ => exact underlined_marked room
  | caseOutsideSwitch shown => exact underlined_marked (by omega)
  | nonCaseInSwitch shown =>
    have room : 5 ≤ shown.length := shows
    exact underlined_marked (by omega)
  | unexpectedEnd context after => exact underlined_marked (Nat.le_refl _)
  | nestingTooDeep limit =>
    have room : 0 + 3 ≤ "...".length + 1 := by decide
    exact underlined_of_runs '~' 0 3 (.inl rfl) (by decide) rfl room

/-- What stands in the place of something else is shown behind the lead of the construct, with a
tilde below each character of the lead and a caret below each character of what was found. -/
theorem excerpt_of_found {fault : ParseFault} {context : Construct} {found : Option String}
    (told : fault.found? = some (context, found)) (line : UInt32) :
    (fault.excerpt line).text = context.lead ++ found.getD "" ∧
      (fault.excerpt line).underline =
        run '~' context.lead.length ++ run '^' (max (found.getD "").length 1) := by
  cases fault with
  | expectedKind | expectedToken | unexpectedToken =>
    cases told
    exact ⟨rfl, rfl⟩
  | _ => cases told

end ParseFault

/-- An error that comes from tokens shows both words of a switch. -/
theorem Raised.showsSwitch {tokens : List Token} {error : ParseError}
    (raised : Raised tokens error) : error.value.ShowsSwitch := by
  cases raised with
  | misplaced told =>
    rename_i fault _ _ _ _ _
    cases fault with
    | nonCaseInSwitch => cases told
    | _ => trivial
  | nonCase =>
    simp only [ParseFault.ShowsSwitch, String.length_append]
    have word : "switch ".length = 7 := rfl
    omega
  | _ => trivial

/-- The marks of every error that is reported for a source fit. -/
theorem underlined_excerpt_of_parse {options : Options} {source : String} {error : SourceError}
    (failed : parse options source = .error error) :
    (error.value.excerpt error.location.line).Underlined := by
  rcases error_of_parse failed with ⟨fault, lexical, _⟩ | ⟨fault, tokens, grammatical, _, raised⟩
  · rw [lexical]
    exact fault.underlined_excerpt error.location.line
  · rw [grammatical]
    exact ParseFault.underlined_excerpt raised.showsSwitch error.location.line

/-- A fault stands on the line that is given. -/
@[simp] theorem Fault.line_excerpt (fault : Fault) (line : UInt32) :
    (fault.excerpt line).line = line := by
  cases fault with
  | scan fault => cases fault <;> rfl
  | parse fault =>
    cases fault with
    | unclosedBracket bracket context found => cases context <;> rfl
    | _ => rfl

/-- The underline of every diagnostic fits its excerpt. Whichever error is reported for a source, by
`tokenize` or by `parse`, one line is shown, which is the line of the error; tildes or dashes and at
least one caret stand below it, not more than one mark beyond the text. Where something stands in
the place of something else, the text is the lead of the construct with what was found, as many
tildes as the lead has characters, and as many carets as there are in what was found, or one. -/
theorem underlined_of_error {options : Options} {source : String} {error : SourceError}
    (failed : parse options source = .error error ∨
      ∃ fault, tokenize source = .error ⟨fault, error.location⟩ ∧ error.value = .scan fault) :
    ∃ excerpt, (error.diagnose options).excerpts = [excerpt] ∧
      excerpt.line = (error.diagnose options).location.line ∧
      excerpt.Underlined ∧
      ∀ fault context found, error.value = .parse fault → fault.found? = some (context, found) →
        excerpt.text = context.lead ++ found.getD "" ∧
          excerpt.underline =
            run '~' context.lead.length ++ run '^' (max (found.getD "").length 1) := by
  refine ⟨error.value.excerpt error.location.line, rfl, error.value.line_excerpt _, ?_, ?_⟩
  · rcases failed with failed | ⟨fault, _, lexical⟩
    · exact underlined_excerpt_of_parse failed
    · rw [lexical]
      exact fault.underlined_excerpt error.location.line
  · intro fault context found grammatical told
    rw [grammatical]
    exact ParseFault.excerpt_of_found told error.location.line

/-- In `let 5`, one caret stands below the number. -/
theorem underlined_of_error_number :
    let error : SourceError :=
      ⟨.parse (.expectedKind "identifier" .variableName (some "5")), ⟨4, 5, 1, 5⟩⟩
    parse {} "let 5" = .error error ∧
      ∃ excerpt, (error.diagnose {}).excerpts = [excerpt] ∧ excerpt.line = 1 ∧
        excerpt.Underlined ∧ excerpt.text = "5" ∧ excerpt.underline = "^" := by
  intro error
  have failed : parse {} "let 5" = .error error := by rfl
  obtain ⟨excerpt, shown, line, underlined, found⟩ := underlined_of_error (.inl failed)
  obtain ⟨text, marks⟩ := found _ _ _ rfl rfl
  exact ⟨failed, excerpt, shown, line, underlined, text, marks⟩

end Oreo

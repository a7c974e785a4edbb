import Advisor.Knowledge.Retrieval
import Advisor.Prompt.Messages
import Advisor.Proofs.Consultation.Disclosure
import Advisor.Proofs.Dialogue.Course
import Advisor.Proofs.Json.Records
import Advisor.Proofs.Prompt.Layout
import Advisor.Proofs.Text.Trimming

/-!
How much a prompt can hold. Whatever a client sends and whatever the collaborators bring, each part of it
is cut.
-/

namespace Advisor

open Dialogue

namespace Knowledge

/-- At most four snippets, none with a content of more than 1800 characters. -/
def Few (snippets : List Snippet) : Prop :=
  snippets.length ≤ 4 ∧ ∀ s ∈ snippets, Text.runeCount s.content ≤ 1800

theorem Few.take {snippets : List Snippet}
    (h : ∀ s ∈ snippets, Text.runeCount s.content ≤ 1800) : Few (snippets.take topPages) :=
  ⟨List.length_take_le .., fun s hs => h s (List.mem_of_mem_take hs)⟩

end Knowledge

namespace Scan.Context

end Scan.Context

namespace History

end History

theorem Diagnostic.Marked.mono {piece s : String} (h : Marked piece)
    (hpiece : piece.toList <:+: s.toList) : Marked s := by
  obtain ⟨marker, hmarker, hfound⟩ := h
  obtain ⟨before, after, hs⟩ := hpiece
  refine ⟨marker, hmarker, hfound.trans ?_⟩
  rw [← hs, List.flatMap_append, List.flatMap_append]
  exact List.infix_append ..

theorem ChatRequest.validate_ok {r : ChatRequest} (h : r.validate config requestId = .ok turn) :
    turn.history = History.normalize r.history ∧
      turn.context = { r.context with rows := r.context.rows.take Scan.Context.maxRows } := by
  unfold validate at h
  obtain ⟨apiKey, _, h⟩ := exists_of_bind_ok h
  obtain ⟨model, _, h⟩ := exists_of_bind_ok h
  obtain ⟨userMessage, _, h⟩ := exists_of_bind_ok h
  dsimp only at h
  split at h
  · obtain ⟨baseUrl, _, h⟩ := exists_of_bind_ok h
    obtain ⟨temperature, _, h⟩ := exists_of_bind_ok h
    obtain ⟨maxTokens, _, h⟩ := exists_of_bind_ok h
    cases h
    exact ⟨rfl, rfl⟩
  · cases h

namespace Prompt

end Prompt

end Advisor

import Advisor.Proofs.Consultation.Accounting
import Advisor.Proofs.Prompt.Bounds

/-!
What models are asked in a turn, whatever becomes of it: nothing but the plan, the answer and one
correction, and the answer with a bounded prompt.
-/

namespace Advisor.Consultation

open Dialogue

variable {p : Practice} {listening : Bool} {turn : Turn}

theorem Unheard.calls_nil {r : Option (Except Failure β)} (h : Unheard listening stage acts r) :
    calls acts = [] := by
  rcases h with ⟨_, ⟨rfl, _⟩ | ⟨rfl, _⟩⟩ <;> rfl

end Advisor.Consultation

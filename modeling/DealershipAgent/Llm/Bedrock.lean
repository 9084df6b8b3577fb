import DealershipAgent.Agents.State
import DealershipAgent.Llm.Normalize

/-!
# The Bedrock provider

`BedrockProvider.complete` of `llm/bedrock_provider.py`. `converse` is the `Converse` call of the client.

* `converseMessages`, `systemBlocks`: the messages as the call takes them.
* `bedrock_splits`: messages that begin with their only system message.
-/

namespace DealershipAgent

open Py

/-- `system` -/
def systemBlocks (messages : List Message) : List Str :=
  (messages.filter fun m => m.role = .system).map Message.content

/-- `converse_messages`, each with the text of its one block. -/
def converseMessages (messages : List Message) : List (Role × Str) :=
  (messages.filter fun m => m.role ≠ .system).map fun m => (m.role, m.content)

/-- `complete`. A content block of the reply that has no text is `none`. -/
def BedrockProvider.complete (F : Type) [PyFloat F] [Unicode]
    (converse : Str → List (Role × Str) → List Str → Except Exc (List (Option Str)))
    (messages : List Message) (model : Str) : Except Exc Str := do
  let content ← converse model (converseMessages messages) (systemBlocks messages)
  normalizeLlmResponse F content.reduceOption.flatten

/-- One system message before the others is the system prompt, and they are the conversation. -/
theorem bedrock_splits (prompt : Str) {conversation : List Message}
    (h : ∀ m ∈ conversation, m.role ≠ .system) :
    systemBlocks (⟨.system, prompt⟩ :: conversation) = [prompt] ∧
      converseMessages (⟨.system, prompt⟩ :: conversation) =
        conversation.map fun m => (m.role, m.content) := by
  have hnone : conversation.filter (fun m => m.role = .system) = [] :=
    List.filter_eq_nil_iff.mpr fun m hm => by simpa using h m hm
  have hall : conversation.filter (fun m => m.role ≠ .system) = conversation :=
    List.filter_eq_self.mpr fun m hm => by simpa using h m hm
  constructor
  · simp [systemBlocks, hnone]
  · rw [converseMessages, List.filter_cons_of_neg (by simp), hall]

end DealershipAgent

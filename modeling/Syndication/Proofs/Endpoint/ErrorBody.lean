import Syndication.Proofs.Endpoint.Execution
import Syndication.Proofs.Text.Boundaries

/-!
# How much is kept of an answer that is not accepted

An answer whose status is not accepted is an error that quotes its body. Any bytes may come, and
they are read as text first, so what is quoted is text: all of it if it is short, and otherwise as
much as fits without cutting a character in two.

Main statement:

* `Endpoint.understand_cuts`: what the error quotes.
-/

namespace Syndication

open Text

/-- **A text is cut to a number of bytes.** What is kept is the longest beginning of the text that
fits, and it is found in three steps back at most, none of which leads before the first byte. -/
structure CutTo (room : Nat) (text kept : List Char) : Prop where
  isPrefix : kept <+: text
  fits : (utf8Bytes kept).length ≤ room
  boundary : isBoundary (utf8Bytes text) (utf8Bytes kept).length = true
  /-- No greater part of the text that fits ends between two characters. -/
  longest : ∀ index ≤ room, isBoundary (utf8Bytes text) index = true →
    index ≤ (utf8Bytes kept).length
  whole : (utf8Bytes text).length ≤ room → kept = text
  search : room < (utf8Bytes text).length → ∃ steps cut, steps ≤ 3 ∧ cut + steps = room ∧
    Search (utf8Bytes text) room steps cut ∧ utf8Bytes kept = (utf8Bytes text).take cut

theorem cutTo_takeBytes (room : Nat) (text : List Char) :
    CutTo room text (takeBytes room text) where
  isPrefix := takeBytes_isPrefix room text
  fits := by
    rw [length_utf8Bytes]
    exact byteLength_takeBytes_le room text
  boundary := by
    rw [length_utf8Bytes]
    exact isBoundary_iff.2 ⟨_, takeBytes_isPrefix room text, rfl⟩
  longest := by
    intro index hindex hboundary
    obtain ⟨front, hfront, rfl⟩ := isBoundary_iff.1 hboundary
    rw [length_utf8Bytes]
    exact byteLength_le_of_isPrefix (isPrefix_takeBytes hfront hindex)
  whole := by
    rw [length_utf8Bytes]
    exact takeBytes_of_byteLength_le
  search := by
    rw [length_utf8Bytes]
    intro hlong
    obtain ⟨steps, hsearch⟩ := search_boundaryFrom (utf8Bytes text) room
    have hsteps := hsearch.add_steps
    rw [boundaryFrom_eq] at hsearch hsteps
    have hshort := le_byteLength_takeBytes hlong
    exact ⟨steps, _, by omega, hsteps, hsearch, utf8Bytes_of_isPrefix (takeBytes_isPrefix room text)⟩

/-- The text of an unaccepted answer is the longest beginning that fits. -/
theorem toList_errorBody (r : Response) :
    (errorBody r).toList = takeBytes maxErrorBody r.textChars := by
  unfold errorBody
  dsimp only
  split
  · rename_i hfits
    rw [length_utf8Bytes] at hfits
    rw [Response.text, String.toList_ofList, takeBytes_of_byteLength_le hfits]
  · -- the search has found where that beginning ends
    obtain ⟨rest, hrest⟩ := takeBytes_isPrefix maxErrorBody r.textChars
    rw [String.toList_ofList, boundaryFrom_eq]
    nth_rewrite 2 [← hrest]
    exact takeBytes_append _ rest

/-- **What the error for an unaccepted answer quotes** of the body, whatever its bytes are: as much
as fits of the text that is read from them. -/
theorem Endpoint.understand_cuts {e : Endpoint} {r : Response} (h : ¬ e.Takes r.status) :
    ∃ body : String, e.understand r = .error (.transport e.name (.status r.status body)) ∧
      CutTo 512 r.textChars body.toList := by
  have hanswer : e.understand r =
      .error (.transport e.name (.status r.status (errorBody r))) := by
    rcases e.understand_cases r with ⟨-, hcut⟩ | ⟨htakes, -⟩ | ⟨htakes, -⟩
    · exact hcut
    · exact absurd htakes h
    · exact absurd htakes h
  refine ⟨errorBody r, hanswer, ?_⟩
  rw [toList_errorBody]
  exact cutTo_takeBytes maxErrorBody r.textChars

/-! ### An answer that is cut within a character -/

namespace LongAnswer

def endpoint : Endpoint where
  name := "publish"
  url := "https://alpha.test/publish"
  method := .post
  headers := []
  encoding := .json
  body := none
  acceptStatus := []
  response := ⟨none, none, []⟩

/-- The last character that would fit in part has its first byte at index 510, behind a byte that
is no text. -/
def answer : Response :=
  ⟨404, [], 0xFF :: List.replicate 507 0x61 ++ [0xE2, 0x82, 0xAC, 0x61]⟩

/-- Two steps back, before the character that does not fit, the text is cut. -/
theorem understand_cuts_answer : ¬ endpoint.Takes answer.status ∧
    (∃ body : String, endpoint.understand answer =
        .error (.transport endpoint.name (.status answer.status body)) ∧
      CutTo 512 answer.textChars body.toList) ∧
    errorBody answer = String.ofList ('\uFFFD' :: List.replicate 507 'a') := by
  have hstatus : ¬ endpoint.Takes answer.status := by
    rw [Endpoint.takes_iff]
    decide
  exact ⟨hstatus, Endpoint.understand_cuts hstatus, by decide +kernel⟩

end LongAnswer

end Syndication

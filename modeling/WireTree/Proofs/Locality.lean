import WireTree.Proofs.Shift

/-!
# Windows decode on their own

A window of a buffer decodes to the tree of its bytes alone, moved to where the window starts. So no byte outside of it
matters, and a window that reaches past the end of the buffer decodes as what is there of it, with a note.
-/

namespace WireTree.Message

variable {options : Options} {schema : Schema} {type : Option MessageType}

theorem decodeWindow_append (front window back : Bytes) :
    decodeWindow options schema type (front ++ window ++ back) front.length window.length =
      (decode options schema type window).shift front.length := by
  have hlength : (front ++ window ++ back).length = front.length + (window.length + back.length) := by simp
  have hstart : front.length = min front.length (front ++ window ++ back).length := by omega
  have hwindow : ((front ++ window ++ back).drop (min front.length (front ++ window ++ back).length)).take
      window.length = window := by
    rw [← hstart, List.append_assoc, List.drop_left, List.take_left]
  rw [decodeWindow_eq options schema type hstart hwindow, if_pos (by omega), decode_eq, ← ofBudget_shift,
    Nat.zero_add]

theorem decodeWindow_congr {data data' : Bytes} {offset length : Nat} (hdata : offset + length ≤ data.length)
    (hdata' : offset + length ≤ data'.length)
    (hsame : (data.drop offset).take length = (data'.drop offset).take length) :
    decodeWindow options schema type data offset length = decodeWindow options schema type data' offset length := by
  have hstart : offset = min offset data.length := by omega
  have hstart' : offset = min offset data'.length := by omega
  have hwindow : (data.drop (min offset data.length)).take length = (data.drop offset).take length := by
    rw [← hstart]
  have hwindow' : (data'.drop (min offset data'.length)).take length = (data.drop offset).take length := by
    rw [← hstart', hsame]
  rw [decodeWindow_eq options schema type hstart hwindow, decodeWindow_eq options schema type hstart' hwindow',
    if_pos hdata, if_pos hdata']

theorem decodeWindow_clamp (data : Bytes) (offset length : Nat) :
    let start := min offset data.length
    let stop := min (offset + length) data.length
    let message := decodeWindow options schema type data start (stop - start)
    decodeWindow options schema type data offset length =
      if offset + length ≤ data.length then message
      else
        { message with
          diagnostics := ⟨message.span, .truncated start length (stop - start)⟩ :: message.diagnostics } := by
  intro start stop message
  obtain ⟨front, window, back, hdata, hfront, hlength, hwindow⟩ := exists_window data offset length
  have hstart : front.length = min start data.length := by omega
  have hinside : (data.drop (min start data.length)).take (stop - start) = window := by
    rw [← hstart, hdata, List.drop_left]
    have hall : stop - start = window.length := by omega
    rw [hall, List.take_left]
  have hmessage : message = ofBudget options schema options.maxDepth type front.length window := by
    show decodeWindow options schema type data start (stop - start) = _
    rw [decodeWindow_eq options schema type hstart hinside, if_pos (by omega)]
  rw [decodeWindow_eq options schema type hfront hwindow, hmessage, hlength, hfront]

/-- Where a window stands shows in offsets only, what stands around it not at all, and what is missing of it in one note
at the front. -/
theorem decodeWindow_local (options : Options) (schema : Schema) (type : Option MessageType) :
    (∀ front window back : Bytes,
      decodeWindow options schema type (front ++ window ++ back) front.length window.length =
        (decode options schema type window).shift front.length) ∧
    (∀ (data data' : Bytes) (offset length : Nat), offset + length ≤ data.length → offset + length ≤ data'.length →
      (data.drop offset).take length = (data'.drop offset).take length →
        decodeWindow options schema type data offset length =
          decodeWindow options schema type data' offset length) ∧
    (∀ (data : Bytes) (offset length : Nat),
      let start := min offset data.length
      let stop := min (offset + length) data.length
      let message := decodeWindow options schema type data start (stop - start)
      decodeWindow options schema type data offset length =
        if offset + length ≤ data.length then message
        else
          { message with
            diagnostics := ⟨message.span, .truncated start length (stop - start)⟩ :: message.diagnostics }) :=
  ⟨decodeWindow_append, fun _ _ _ _ hdata hdata' hsame => decodeWindow_congr hdata hdata' hsame,
    decodeWindow_clamp⟩

end WireTree.Message

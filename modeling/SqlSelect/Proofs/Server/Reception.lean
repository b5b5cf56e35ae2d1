import SqlSelect.Server.Client

namespace SqlSelect

/-- What comes of a reply that a client goes through message by message, when these are the latest column names. -/
inductive Reception : Option (List String) → Reply → Except QueryFault (List QueryMessage) → Prop
  | nil {names : Option (List String)} : Reception names [] (.ok [])
  | columns {names : Option (List String)} {own : List String} {rest : Reply}
      {result : Except QueryFault (List QueryMessage)} (others : Reception (some own) rest result) :
      Reception names (.columns own :: rest) (result.map (.columns own :: ·))
  | row {names : List String} {values : List (Option String)} {rest : Reply}
      {result : Except QueryFault (List QueryMessage)} (fits : values.length = names.length)
      (others : Reception (some names) rest result) :
      Reception (some names) (.row values :: rest) (result.map (.row ⟨names, values⟩ :: ·))
  /-- Nothing behind a row that does not fit is looked at. -/
  | misfit {names : List String} {values : List (Option String)} {rest : Reply}
      (misfit : values.length ≠ names.length) : Reception (some names) (.row values :: rest) (.error .rowMisfit)
  | early {values : List (Option String)} {rest : Reply} :
      Reception none (.row values :: rest) (.error .rowBeforeColumns)
  | refusal {names : Option (List String)} {rest : Reply} : Reception names (.error :: rest) (.error .refused)
  | complete {names : Option (List String)} {rest : Reply} {result : Except QueryFault (List QueryMessage)}
      (others : Reception names rest result) : Reception names (.complete :: rest) (result.map (.complete :: ·))
  /-- A query without a statement completes too. -/
  | emptyQuery {names : Option (List String)} {rest : Reply} {result : Except QueryFault (List QueryMessage)}
      (others : Reception names rest result) : Reception names (.emptyQuery :: rest) (result.map (.complete :: ·))
  /-- Notices go elsewhere. -/
  | notice {names : Option (List String)} {rest : Reply} {result : Except QueryFault (List QueryMessage)}
      (others : Reception names rest result) : Reception names (.notice :: rest) result

namespace Client

/-- What is relied on of a client. -/
structure Documented (client : Client) : Prop where
  /-- Exactly the texts without a NUL can be sent. -/
  encodes : ∀ text, client.encodes text = true ↔ '\x00' ∉ text.toList
  receives : ∀ reply, Reception none reply (client.receive reply)

theorem reception_messagesAfter (names : Option (List String)) (reply : Reply) :
    Reception names reply (messagesAfter names reply) := by
  induction names, reply using messagesAfter.induct with
  | case1 => simpa only [messagesAfter] using .nil
  | case2 _ own rest ih => simpa only [messagesAfter] using .columns ih
  | case3 names values rest fits ih => simpa only [messagesAfter, if_pos fits] using .row fits ih
  | case4 names values rest misfit => simpa only [messagesAfter, if_neg misfit] using .misfit misfit
  | case5 => simpa only [messagesAfter] using .early
  | case6 => simpa only [messagesAfter] using .refusal
  | case7 names rest ih => simpa only [messagesAfter] using .complete ih
  | case8 names rest ih => simpa only [messagesAfter] using .emptyQuery ih
  | case9 names rest ih => simpa only [messagesAfter] using .notice ih

/-- There is only one way to go through a reply. -/
theorem messagesAfter_eq {names : Option (List String)} {reply : Reply}
    {result : Except QueryFault (List QueryMessage)} (reception : Reception names reply result) :
    messagesAfter names reply = result := by
  induction reception with
  | nil => simp only [messagesAfter]
  | columns others ih => rw [messagesAfter, ih]
  | row fits others ih => rw [messagesAfter, if_pos fits, ih]
  | misfit misfit => rw [messagesAfter, if_neg misfit]
  | early => rw [messagesAfter]
  | refusal => simp only [messagesAfter]
  | complete others ih => simp only [messagesAfter, ih]
  | emptyQuery others ih => simp only [messagesAfter, ih]
  | notice others ih => simp only [messagesAfter, ih]

theorem documented_standard : standard.Documented where
  encodes text := by simp [standard]
  receives := reception_messagesAfter none

end Client

end SqlSelect

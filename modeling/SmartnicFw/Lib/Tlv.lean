import Mathlib

/-!
This module contains messages that are made of fields, each of which has a key of one byte, the length
of its value in one byte, and the value.
-/

namespace Tlv

-- The value is what the message has of it, which is less than the length when the message ends first
structure Field where
  key : UInt8
  length : UInt8
  value : List UInt8
  deriving DecidableEq, Repr

def Field.Complete (field : Field) : Prop := field.value.length = field.length.toNat

-- The fields of a message, of which only the last one can be cut short
inductive Fields : List UInt8 → List Field → Prop where
  | nil : Fields [] []
  | cons {rest : List UInt8} {fields : List Field} (key length : UInt8)
      (h : Fields (rest.drop length.toNat) fields)
      : Fields (key :: length :: rest) (⟨key, length, rest.take length.toNat⟩ :: fields)

-- Every field of a message satisfies `ok`, and no header is cut short
def All (ok : Field → Prop) (message : List UInt8) : Prop :=
  ∃ fields, Fields message fields ∧ ∀ field ∈ fields, ok field

variable {ok : Field → Prop}

theorem all_nil : All ok [] := ⟨[], .nil, by simp⟩

theorem not_all_single (key : UInt8) : ¬ All ok [key] := by
  rintro ⟨fields, hfields, _⟩
  cases hfields

theorem all_cons_iff {key length : UInt8} {rest : List UInt8}
    : All ok (key :: length :: rest) ↔
        ok ⟨key, length, rest.take length.toNat⟩ ∧ All ok (rest.drop length.toNat) := by
  constructor
  . rintro ⟨fields, hfields, hok⟩
    cases hfields with
    | cons key length hrest =>
      refine ⟨hok _ List.mem_cons_self, _, hrest, ?_⟩
      intro field hmem
      exact hok field (List.mem_cons_of_mem _ hmem)
  . rintro ⟨hfirst, fields, hfields, hok⟩
    refine ⟨_, .cons key length hfields, ?_⟩
    intro field hmem
    rcases List.mem_cons.mp hmem with rfl | hmem
    . exact hfirst
    . exact hok field hmem

end Tlv

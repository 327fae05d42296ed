import Mathlib.Data.List.Infix

/-!
# Proxies

A proxy passes on what its client gives it under its own address, and passes back
to the client what it hears.  In between it remembers no more than whom it has to
answer, and after the answer it is done: it passes on one parcel and passes back one.
-/

namespace SimpleVpn.Proxies

variable {Address Content : Type*}

/-- Something that travels between two addresses. -/
@[ext]
structure Parcel (Address Content : Type*) where
  source : Address
  dest : Address
  content : Content

/-- The parcel under another sender's address. -/
def Parcel.sentBy (parcel : Parcel Address Content) (own : Address) :
    Parcel Address Content := { parcel with source := own }

/-- The parcel under another receiver's address. -/
def Parcel.handedTo (parcel : Parcel Address Content) (client : Address) :
    Parcel Address Content := { parcel with dest := client }

/-- What a proxy does. -/
inductive Deed (Address Content : Type*)
  | takes (parcel : Parcel Address Content)
  | calls (address : Address)
  | passesOn (parcel : Parcel Address Content)
  | hears (parcel : Parcel Address Content)
  | passesBack (parcel : Parcel Address Content)

/-- What a proxy still has to do. -/
inductive Duty (Address Content : Type*)
  | free
  | charged (parcel : Parcel Address Content)
  | calling (parcel : Parcel Address Content)
  | waiting (client : Address)
  | answered (client : Address) (parcel : Parcel Address Content)
  | done

/-- A proxy with its own address: it calls the receiver of what it took, passes it
on in its own name, and remembers the sender for the answer, which is its last deed. -/
inductive Step (own : Address) :
    Duty Address Content → Deed Address Content → Duty Address Content → Prop
  | take (parcel : Parcel Address Content) :
      Step own .free (.takes parcel) (.charged parcel)
  | call (parcel : Parcel Address Content) :
      Step own (.charged parcel) (.calls parcel.dest) (.calling parcel)
  | passOn (parcel : Parcel Address Content) :
      Step own (.calling parcel) (.passesOn (parcel.sentBy own))
        (.waiting parcel.source)
  | hear (client : Address) (parcel : Parcel Address Content) :
      Step own (.waiting client) (.hears parcel) (.answered client parcel)
  | passBack (client : Address) (parcel : Parcel Address Content) :
      Step own (.answered client parcel) (.passesBack (parcel.handedTo client))
        .done

inductive Run (own : Address) :
    Duty Address Content → List (Deed Address Content) →
      Duty Address Content → Prop
  | nil (duty : Duty Address Content) : Run own duty [] duty
  | cons {before middle after : Duty Address Content}
      {deed : Deed Address Content} {rest : List (Deed Address Content)}
      (hstep : Step own before deed middle) (hrest : Run own middle rest after) :
      Run own before (deed :: rest) after

/-- A proxy can stop at any time. -/
theorem Run.of_isPrefix {own : Address} {before after : Duty Address Content}
    {deeds beginning : List (Deed Address Content)}
    (hrun : Run own before deeds after) (hbegins : beginning <+: deeds) :
    ∃ duty, Run own before beginning duty := by
  induction hrun generalizing beginning with
  | nil duty =>
      rw [List.prefix_nil.mp hbegins]
      exact ⟨duty, .nil duty⟩
  | @cons before middle after deed rest hstep _ ih =>
      rcases List.prefix_cons_iff.mp hbegins with rfl | ⟨front, rfl, hfront⟩
      · exact ⟨before, .nil before⟩
      · obtain ⟨duty, hduty⟩ := ih hfront
        exact ⟨duty, .cons hstep hduty⟩

/-- One parcel and its answer. -/
theorem run_exchange (own : Address) (request response : Parcel Address Content) :
    Run own .free [.takes request, .calls request.dest,
      .passesOn (request.sentBy own), .hears response,
      .passesBack (response.handedTo request.source)] .done :=
  .cons (.take request) (.cons (.call request) (.cons (.passOn request)
    (.cons (.hear request.source response)
      (.cons (.passBack request.source response) (.nil .done)))))

end SimpleVpn.Proxies

import Sm8650.Rmnet.Ownership
import Sm8650.Rmnet.Pool

/-!
# What deaggregation hands to the handler

Whichever requests for memory are granted, every descriptor that
`rmnet_frag_deaggregate` puts on its list holds a complete frame.
-/

namespace Sm8650.Rmnet

open List Function Deaggregation

/-- The descriptor is on the list when `rmnet_frag_deaggregate` returns. -/
def Produced (port : IngressPort) (desc : FragDescriptor) : Prop :=
  ∃ (skb : Skb) (priority : BitVec 32) (before : Port) (fuel : Nat) (state : Deaggregation)
    (id : Nat),
    before.WellFormed ∧ before.dataFormat = port.dataFormat ∧
      rmnetFragDeaggregate port.pages skb priority fuel ⟨before, []⟩ 0 =
        some state ∧ id ∈ state.list ∧ state.port.descs id = desc

/-- One descriptor was written, and memory was asked for. -/
structure Wrote (before : Port) (id : Nat) (after : Port) : Prop where
  dataFormat : after.dataFormat = before.dataFormat
  freeList : after.freeList = before.freeList
  poolSize : after.poolSize = before.poolSize
  others : ∀ other, other ≠ id → after.descs other = before.descs other
  hdrsValid : (after.descs id).hdrsValid = (before.descs id).hdrsValid

theorem Wrote.refl (port : Port) (id : Nat) : Wrote port id port :=
  ⟨rfl, rfl, rfl, fun _ _ => rfl, rfl⟩

theorem Wrote.trans {before middle after : Port} {id : Nat} (first : Wrote before id middle)
    (second : Wrote middle id after) : Wrote before id after :=
  ⟨second.dataFormat.trans first.dataFormat, second.freeList.trans first.freeList,
    second.poolSize.trans first.poolSize,
    fun other different => (second.others other different).trans (first.others other different),
    second.hdrsValid.trans first.hdrsValid⟩

theorem Wrote.setDesc (port : Port) (id : Nat) {desc : FragDescriptor}
    (hdrsValid : desc.hdrsValid = (port.descs id).hdrsValid) :
    Wrote port id (port.setDesc id desc) := by
  refine ⟨rfl, rfl, rfl, fun other different => update_of_ne different _ _, ?_⟩
  simpa [Port.setDesc] using hdrsValid

/-- The bytes that were added to a descriptor. -/
structure Grew (pages : Pages) (before : Port) (id : Nat) (added : List Byte) (after : Port) :
    Prop where
  bytes : (after.descs id).bytes pages = (before.descs id).bytes pages ++ added
  len : (after.descs id).len = (before.descs id).len + added.length

section Add

variable {pages : Pages} {port after : Port} {id : Nat}

theorem addFrag_wrote {frag : SkbFrag} {added : Bool}
    (result : port.rmnetFragDescriptorAddFrag id frag = (added, after)) :
    Wrote port id after ∧ (added = true → Grew pages port id (frag.bytes pages) after) := by
  unfold Port.rmnetFragDescriptorAddFrag at result
  by_cases granted : port.allocs port.requests = true
  · rw [if_pos granted] at result
    obtain ⟨rfl, rfl⟩ := Prod.mk.inj result
    refine ⟨⟨rfl, rfl, rfl, fun other different => update_of_ne different _ _, ?_⟩,
      fun _ => ⟨?_, ?_⟩⟩
    · simp [Port.setDesc]
    · simp [Port.setDesc, FragDescriptor.bytes]
    · simp [Port.setDesc]
  · rw [if_neg granted] at result
    obtain ⟨rfl, rfl⟩ := Prod.mk.inj result
    exact ⟨⟨rfl, rfl, rfl, fun _ _ => rfl, rfl⟩, fun added => absurd added Bool.false_ne_true⟩

/-- The loop over the fragments takes what is there of the packet, unless it is stopped. -/
theorem addFrags_wrote {frags : List SkbFrag} {pktLen : Nat} {left : Option Nat}
    (result : addFrags port id frags pktLen = (left, after)) :
    Wrote port id after ∧ ∀ missing, left = some missing →
      missing = pktLen - (fragBytes pages frags).length ∧
        Grew pages port id ((fragBytes pages frags).take pktLen) after := by
  induction frags generalizing port pktLen with
  | nil =>
    obtain ⟨rfl, rfl⟩ := Prod.mk.inj result
    refine ⟨Wrote.refl port id, fun missing same => ⟨(Option.some.inj same).symm, ?_, ?_⟩⟩
    · simp
    · simp
  | cons frag frags ih =>
    unfold addFrags at result
    by_cases done : pktLen = 0
    · rw [if_pos done] at result
      obtain ⟨rfl, rfl⟩ := Prod.mk.inj result
      refine ⟨Wrote.refl port id, fun missing same => ⟨?_, ?_, ?_⟩⟩
      · rw [done, Nat.zero_sub]
        exact (Option.some.inj same).symm
      · simp [done]
      · simp [done]
    rw [if_neg done] at result
    rcases one : port.rmnetFragDescriptorAddFrag id (frag.shorten (min frag.size pktLen)) with
      ⟨_ | _, middle⟩
    · simp only [one] at result
      obtain ⟨rfl, rfl⟩ := Prod.mk.inj result
      exact ⟨(@addFrag_wrote pages _ _ _ _ _ one).1, fun missing none => by cases none⟩
    simp only [one] at result
    obtain ⟨wrote, grew⟩ := @addFrag_wrote pages _ _ _ _ _ one
    have first := grew rfl
    have copied : (frag.shorten (min frag.size pktLen)).bytes pages =
        (frag.bytes pages).take pktLen := by
      have upToEnd := @take_eq_take_min _ (frag.bytes pages) pktLen
      rw [SkbFrag.length_bytes, Nat.min_comm] at upToEnd
      rw [SkbFrag.bytes_shorten _ _ (Nat.min_le_left _ _), upToEnd]
    rw [copied] at first
    rw [fragBytes_cons, take_append, length_append, SkbFrag.length_bytes]
    by_cases exhausted : frag.size - min frag.size pktLen = 0
    · rw [if_pos exhausted] at result
      have taken : min frag.size pktLen = frag.size := by omega
      rw [taken] at result
      obtain ⟨wroteRest, grewRest⟩ := ih result
      refine ⟨wrote.trans wroteRest, fun missing same => ?_⟩
      obtain ⟨short, rest⟩ := grewRest missing same
      refine ⟨by omega, ?_, ?_⟩
      · rw [rest.bytes, first.bytes, append_assoc]
      · rw [rest.len, first.len, length_append, Nat.add_assoc]
    · rw [if_neg exhausted] at result
      obtain ⟨rfl, rfl⟩ := Prod.mk.inj result
      have taken : pktLen - frag.size = 0 := by omega
      refine ⟨wrote, fun missing same => ⟨?_, ?_⟩⟩
      · have value := Option.some.inj same
        omega
      · rw [taken, take_zero, append_nil]
        exact first

end Add

/-! ## The list -/

/-- The descriptors on the list hold frames; they and those that are held for the frame
under way are not in the pool. -/
structure Listing (pages : Pages) (format : BitVec 32) (list held : List Nat) (port : Port) :
    Prop where
  dataFormat : port.dataFormat = format
  wellFormed : port.WellFormed
  taken : ∀ id ∈ list ++ held, ¬ FromPool port id
  apart : ∀ id ∈ held, id ∉ list
  consistent : ∀ id ∈ list, (port.descs id).Consistent
  frames : ∀ id ∈ list, IsFrame format ((port.descs id).bytes pages)
  unmarked : ∀ id ∈ list, (port.descs id).hdrsValid = false

section List

variable {pages : Pages} {format : BitVec 32} {list held : List Nat} {port after : Port} {id : Nat}

/-- The descriptors on the list stay as they are. -/
theorem Listing.of_same {stillHeld : List Nat} (listing : Listing pages format list held port)
    (sameFormat : after.dataFormat = port.dataFormat) (wellFormed : after.WellFormed)
    (taken : ∀ id ∈ list ++ stillHeld, ¬ FromPool after id) (apart : ∀ id ∈ stillHeld, id ∉ list)
    (same : ∀ id ∈ list, after.descs id = port.descs id) :
    Listing pages format list stillHeld after where
  dataFormat := sameFormat.trans listing.dataFormat
  wellFormed := wellFormed
  taken := taken
  apart := apart
  consistent id listed := by
    rw [same id listed]
    exact listing.consistent id listed
  frames id listed := by
    rw [same id listed]
    exact listing.frames id listed
  unmarked id listed := by
    rw [same id listed]
    exact listing.unmarked id listed

theorem Listing.get_none (listing : Listing pages format list [] port)
    (got : port.rmnetGetFragDescriptor = (none, after)) : Listing pages format list [] after := by
  obtain ⟨wellFormed, free, descs⟩ := listing.wellFormed.get_none got
  refine listing.of_same (rmnetGetFragDescriptor_dataFormat got) wellFormed (fun id member => ?_)
    listing.apart fun id _ => congrFun descs id
  rw [free]
  exact listing.taken id member

theorem Listing.get_some (listing : Listing pages format list [] port)
    (got : port.rmnetGetFragDescriptor = (some id, after)) :
    Listing pages format list [id] after ∧ after.descs id = .zero := by
  obtain ⟨wellFormed, wasFree, free, clear, others⟩ := listing.wellFormed.get_some got
  have taken : ∀ other ∈ list, ¬ FromPool port other := fun other listed =>
    listing.taken other (mem_append_left _ listed)
  refine ⟨listing.of_same (rmnetGetFragDescriptor_dataFormat got) wellFormed ?_ ?_ ?_, clear⟩
  · intro other member
    rw [free]
    rcases mem_append.mp member with listed | new
    · exact fun isFree => taken other listed isFree.1
    · exact fun isFree => isFree.2 (mem_singleton.mp new)
  · intro other new listed
    rw [mem_singleton.mp new] at listed
    exact taken id listed wasFree
  · exact fun other listed => others other (taken other listed)

section

variable (listing : Listing pages format list [id] port)

include listing

theorem Listing.wrote (wrote : Wrote port id after) : Listing pages format list [id] after := by
  have notFree : ¬ FromPool port id := listing.taken id (by simp)
  have notListed : id ∉ list := listing.apart id (by simp)
  refine listing.of_same wrote.dataFormat
    (listing.wellFormed.of_written notFree wrote.freeList wrote.poolSize wrote.others) ?_
    listing.apart fun other listed => ?_
  · intro other member
    unfold FromPool
    rw [wrote.freeList, wrote.poolSize]
    exact listing.taken other member
  · exact wrote.others other (ne_of_mem_of_not_mem listed notListed)

theorem Listing.recycle : Listing pages format list [] (port.rmnetRecycleFragDescriptor id) := by
  have notListed : id ∉ list := listing.apart id (by simp)
  obtain ⟨wellFormed, free, others⟩ := listing.wellFormed.recycle (listing.taken id (by simp))
  refine listing.of_same rfl wellFormed ?_ (by simp) fun other listed => ?_
  · intro other member
    rw [append_nil] at member
    rw [free, not_or]
    exact ⟨listing.taken other (mem_append_left _ member), ne_of_mem_of_not_mem member notListed⟩
  · exact others other (ne_of_mem_of_not_mem listed notListed)

theorem Listing.concat (consistent : (port.descs id).Consistent)
    (frame : IsFrame format ((port.descs id).bytes pages))
    (unmarked : (port.descs id).hdrsValid = false) :
    Listing pages format (list ++ [id]) [] port where
  dataFormat := listing.dataFormat
  wellFormed := listing.wellFormed
  taken := by
    rw [append_nil]
    exact listing.taken
  apart _ none := absurd none not_mem_nil
  consistent other member := by
    rcases mem_append.mp member with listed | new
    · exact listing.consistent other listed
    · rw [mem_singleton.mp new]
      exact consistent
  frames other member := by
    rcases mem_append.mp member with listed | new
    · exact listing.frames other listed
    · rw [mem_singleton.mp new]
      exact frame
  unmarked other member := by
    rcases mem_append.mp member with listed | new
    · exact listing.unmarked other listed
    · rw [mem_singleton.mp new]
      exact unmarked

end

/-- What is held is lost. -/
theorem Listing.drop (listing : Listing pages format list held port) :
    Listing pages format list [] port :=
  listing.of_same rfl listing.wellFormed
    (fun id member => listing.taken id (mem_append_left _ (by simpa using member)))
    (by simp) fun _ _ => rfl

/-- A round of the loop puts frames on the list only. -/
theorem Listing.deaggregateOne {skb : Skb} {start : Nat} (within : start < skb.len)
    (listing : Listing pages format list [] port) (priority : BitVec 32) :
    Listing pages format
      (rmnetFragDeaggregateOne pages skb ⟨port, list⟩ start priority).2.list []
      (rmnetFragDeaggregateOne pages skb ⟨port, list⟩ start priority).2.port := by
  obtain ⟨frag, off, rest, found, bytes⟩ := startFrag_remaining pages within
  unfold rmnetFragDeaggregateOne
  simp only [found]
  by_cases long : mapHeaderSize ≤ (remaining pages skb start).length
  swap
  · simp only [header_none bytes within (Nat.lt_of_not_le long)]
    exact listing
  obtain ⟨header, read, sameHeader⟩ := header_spec bytes long
  simp only [read, sameHeader]
  by_cases empty : (mapHeader (remaining pages skb start)).pktLen = 0
  · rw [if_pos empty]
    exact listing
  rw [if_neg empty]
  rcases got : port.rmnetGetFragDescriptor with ⟨_ | id, taken⟩
  · exact listing.get_none got
  obtain ⟨listingTaken, clear⟩ := listing.get_some got
  have listingMarked := listingTaken.wrote (@Wrote.setDesc taken id
    { taken.descs id with priority := priority } rfl)
  simp only
  generalize marked : taken.setDesc id { taken.descs id with priority := priority } = port'
    at listingMarked ⊢
  have emptyMarked : port'.descs id = { FragDescriptor.zero with priority := priority } := by
    rw [← marked]
    simp [Port.setDesc, clear]
  rw [listingTaken.dataFormat]
  rcases @frameLen_spec pages skb start (frag.advance (start - off)) rest format bytes long empty
    with ⟨_, unknown⟩ | ⟨_, known⟩
  · simp only [unknown]
    exact listingMarked.drop
  simp only [known]
  rcases added : addFrags port' id (frag.advance (start - off) :: rest)
    (announced format (remaining pages skb start)) with ⟨_ | _ | missing, after⟩
  all_goals
    obtain ⟨wrote, grew⟩ := @addFrags_wrote pages _ _ _ _ _ _ added
    have listingAfter := listingMarked.wrote wrote
  · exact listingAfter.recycle
  · obtain ⟨nothing, grown⟩ := grew 0 rfl
    rw [bytes] at nothing grown
    have fits : announced format (remaining pages skb start) ≤
        (remaining pages skb start).length := by omega
    have ownBytes := grown.bytes
    have ownLen := grown.len
    rw [emptyMarked] at ownBytes ownLen
    have frame := StartsWithFrame.isFrame ⟨empty, fits⟩
    refine listingAfter.concat ?_ ?_ ?_
    · rw [FragDescriptor.Consistent, ← length_fragBytes pages]
      change _ = ((after.descs id).bytes pages).length
      rw [ownLen, ownBytes, length_append]
      rfl
    · rw [ownBytes]
      exact frame
    · rw [wrote.hdrsValid, emptyMarked]
      rfl
  · exact listingAfter.recycle

theorem Listing.deaggregate {skb : Skb} {fuel start : Nat} {state final : Deaggregation}
    {priority : BitVec 32} (listing : Listing pages format state.list [] state.port)
    (returned : rmnetFragDeaggregate pages skb priority fuel state start =
      some final) : Listing pages format final.list [] final.port := by
  induction fuel generalizing state start with
  | zero => cases returned
  | succ fuel ih =>
    unfold rmnetFragDeaggregate at returned
    by_cases within : start < skb.len
    · rw [if_pos within] at returned
      have after := listing.deaggregateOne within priority
      rcases one : rmnetFragDeaggregateOne pages skb state start priority with
        ⟨_ | rc, next⟩
      · rw [one] at returned after
        cases returned
        exact after
      · rw [one] at returned after
        exact ih after returned
    · rw [if_neg within] at returned
      cases returned
      exact listing

end List

/-- What is handed to the handler is a complete frame. -/
theorem Produced.frameDescriptor {port : IngressPort} {desc : FragDescriptor}
    (produced : Produced port desc) : FrameDescriptor port desc := by
  obtain ⟨skb, priority, before, fuel, state, id, wellFormed, dataFormat, returned, listed, rfl⟩ :=
    produced
  have listing : Listing port.pages port.dataFormat [] [] before :=
    ⟨dataFormat, wellFormed, by simp, by simp, by simp, by simp, by simp⟩
  have after := Listing.deaggregate listing returned
  exact ⟨after.consistent id listed, after.frames id listed, after.unmarked id listed⟩

end Sm8650.Rmnet

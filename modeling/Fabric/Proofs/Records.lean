import Fabric.Proofs.Faithful

/-! Event records survive their own text. Every record that can be in one is faithful, from those of a port or
a host up to the record itself, and so the text of a record is read back as that record, also when it
holds members that nobody knows (`ofBytes?_written`). -/

namespace Fabric

open Fabric.Text Json

namespace PortChange

theorem nodup : ["port_no", "status", "reason"].Nodup := by decide

def shape : Shape := .members [("port_no", .plain), ("status", .plain), ("reason", .plain)]

theorem faithful : Faithful Any shape toJson ofJson? where
  back c _ := by
    unfold toJson ofJson?
    refine read_record ?_
    refine read_required .u32 nodup trivial 0 rfl ?_
    refine read_required .truth nodup trivial 1 rfl ?_
    refine read_defaulted .text nodup trivial 2 rfl ?_
    rfl
  blind := by
    refine .record _ fun r r' h => ?_
    rw [h.required nodup 0 rfl (.plain _), h.required nodup 1 rfl (.plain _),
      h.defaulted nodup 2 rfl _ (.plain _)]
  writable c _ := writable_ofPresent <| by
    simp only [List.forall_mem_cons]
    exact ⟨Faithful.u32.writable_some trivial, Faithful.truth.writable_some trivial,
      Faithful.text.writable_some trivial, by simp⟩
  present _ _ := rfl

end PortChange

namespace Learn

theorem nodup : ["port_no", "eth_src", "vid", "l3_src_ip"].Nodup := by decide

def shape : Shape := .members [("port_no", .plain), ("eth_src", .plain), ("vid", .plain), ("l3_src_ip", .plain)]

theorem faithful : Faithful Any shape toJson ofJson? where
  back l _ := by
    unfold toJson ofJson?
    refine read_record ?_
    refine read_required .u32 nodup trivial 0 rfl ?_
    refine read_required .text nodup trivial 1 rfl ?_
    refine read_optional .u16 nodup (fun _ _ => trivial) 2 rfl ?_
    refine read_optional .text nodup (fun _ _ => trivial) 3 rfl ?_
    rfl
  blind := by
    refine .record _ fun r r' h => ?_
    rw [h.required nodup 0 rfl (.plain _), h.required nodup 1 rfl (.plain _),
      h.optional nodup 2 rfl (.plain _), h.optional nodup 3 rfl (.plain _)]
  writable l _ := writable_ofPresent <| by
    simp only [List.forall_mem_cons]
    exact ⟨Faithful.u32.writable_some trivial, Faithful.text.writable_some trivial,
      Faithful.u16.writable_map fun _ _ => trivial, Faithful.text.writable_map fun _ _ => trivial, by simp⟩
  present _ _ := rfl

end Learn

namespace Expiry

theorem nodup : ["port_no", "eth_src", "vid"].Nodup := by decide

def shape : Shape := .members [("port_no", .plain), ("eth_src", .plain), ("vid", .plain)]

theorem faithful : Faithful Any shape toJson ofJson? where
  back x _ := by
    unfold toJson ofJson?
    refine read_record ?_
    refine read_required .u32 nodup trivial 0 rfl ?_
    refine read_required .text nodup trivial 1 rfl ?_
    refine read_optional .u16 nodup (fun _ _ => trivial) 2 rfl ?_
    rfl
  blind := by
    refine .record _ fun r r' h => ?_
    rw [h.required nodup 0 rfl (.plain _), h.required nodup 1 rfl (.plain _), h.optional nodup 2 rfl (.plain _)]
  writable x _ := writable_ofPresent <| by
    simp only [List.forall_mem_cons]
    exact ⟨Faithful.u32.writable_some trivial, Faithful.text.writable_some trivial,
      Faithful.u16.writable_map fun _ _ => trivial, by simp⟩
  present _ _ := rfl

end Expiry

namespace LagChange

theorem nodup : ["port_no", "state", "role"].Nodup := by decide

def shape : Shape := .members [("port_no", .plain), ("state", .plain), ("role", .plain)]

/-- State and role are numbers of 64 bits. -/
structure Fits (l : LagChange) : Prop where
  state : Signed64 l.state
  role : ∀ r ∈ l.role, Signed64 r

theorem faithful : Faithful Fits shape toJson ofJson? where
  back l h := by
    unfold toJson ofJson?
    refine read_record ?_
    refine read_required .u32 nodup trivial 0 rfl ?_
    refine read_required .integer nodup h.state 1 rfl ?_
    refine read_optional .integer nodup h.role 2 rfl ?_
    rfl
  blind := by
    refine .record _ fun r r' h => ?_
    rw [h.required nodup 0 rfl (.plain _), h.required nodup 1 rfl (.plain _), h.optional nodup 2 rfl (.plain _)]
  writable l h := writable_ofPresent <| by
    simp only [List.forall_mem_cons]
    exact ⟨Faithful.u32.writable_some trivial, Faithful.integer.writable_some h.state,
      Faithful.integer.writable_map h.role, by simp⟩
  present _ _ := rfl

end LagChange

namespace StackChange

theorem nodup : ["port", "state"].Nodup := by decide

def shape : Shape := .members [("port", .plain), ("state", .plain)]

theorem faithful : Faithful (fun s => Signed64 s.state) shape toJson ofJson? where
  back s h := by
    unfold toJson ofJson?
    refine read_record ?_
    refine read_required .u32 nodup trivial 0 rfl ?_
    refine read_required .integer nodup h 1 rfl ?_
    rfl
  blind := by
    refine .record _ fun r r' h => ?_
    rw [h.required nodup 0 rfl (.plain _), h.required nodup 1 rfl (.plain _)]
  writable s h := writable_ofPresent <| by
    simp only [List.forall_mem_cons]
    exact ⟨Faithful.u32.writable_some trivial, Faithful.integer.writable_some h, by simp⟩
  present _ _ := rfl

end StackChange

namespace AnnouncedLink

theorem nodup_ports : ["dp_a", "port_a", "dp_z", "port_z"].Nodup := by decide

theorem nodup : ["key", "port_map"].Nodup := by decide

def portsShape : Shape := .members [("dp_a", .plain), ("port_a", .plain), ("dp_z", .plain), ("port_z", .plain)]

def shape : Shape := .members [("key", .plain), ("port_map", portsShape)]

/-- What a link is between, as a record of its own. -/
def portsOfJson? (key : Option String) (j : Json) : Option AnnouncedLink := do
  let ports ← j.record? ["dp_a", "port_a", "dp_z", "port_z"]
  let switchA ← Source.required ports "dp_a" Json.text?
  let portA ← Source.required ports "port_a" Json.text?
  let switchZ ← Source.required ports "dp_z" Json.text?
  let portZ ← Source.required ports "port_z" Json.text?
  some ⟨key, switchA, portA, switchZ, portZ⟩

def portsToJson (l : AnnouncedLink) : Json :=
  .ofPresent [("dp_a", Json.someText l.switchA), ("port_a", Json.someText l.portA),
    ("dp_z", Json.someText l.switchZ), ("port_z", Json.someText l.portZ)]

theorem ofJson?_eq (j : Json) : ofJson? j =
    (j.record? ["key", "port_map"]).bind fun r =>
      (Source.optional r "key" Json.text?).bind fun key => Source.required r "port_map" (portsOfJson? key) := by
  unfold ofJson?
  congr 1
  funext r
  congr 1
  funext key
  unfold Source.required
  split <;> rfl

theorem faithful_ports (key : Option String) :
    Faithful (fun l => l.key = key) portsShape portsToJson (portsOfJson? key) where
  back l h := by
    subst h
    unfold portsToJson portsOfJson?
    refine read_record ?_
    refine read_required .text nodup_ports trivial 0 rfl ?_
    refine read_required .text nodup_ports trivial 1 rfl ?_
    refine read_required .text nodup_ports trivial 2 rfl ?_
    refine read_required .text nodup_ports trivial 3 rfl ?_
    rfl
  blind := by
    refine .record _ fun r r' h => ?_
    rw [h.required nodup_ports 0 rfl (.plain _), h.required nodup_ports 1 rfl (.plain _),
      h.required nodup_ports 2 rfl (.plain _), h.required nodup_ports 3 rfl (.plain _)]
  writable l _ := writable_ofPresent <| by
    simp only [List.forall_mem_cons]
    exact ⟨Faithful.text.writable_some trivial, Faithful.text.writable_some trivial,
      Faithful.text.writable_some trivial, Faithful.text.writable_some trivial, by simp⟩
  present _ _ := rfl

theorem faithful : Faithful Any shape toJson ofJson? where
  back l _ := by
    rw [ofJson?_eq]
    unfold toJson
    refine read_record ?_
    refine read_optional .text nodup (fun _ _ => trivial) 0 rfl ?_
    exact (Option.bind_fun_some _).symm.trans (read_required (faithful_ports l.key) nodup rfl 1 rfl rfl)
  blind := by
    rw [funext ofJson?_eq]
    refine .record _ fun r r' h => ?_
    rw [h.optional nodup 0 rfl (.plain _)]
    congr 1
    funext key
    exact h.required nodup 1 rfl (faithful_ports key).blind
  writable l _ := writable_ofPresent <| by
    simp only [List.forall_mem_cons]
    exact ⟨Faithful.text.writable_map fun _ _ => trivial, (faithful_ports l.key).writable_some rfl, by simp⟩
  present _ _ := rfl

end AnnouncedLink

namespace Announcement

theorem nodup_hop : ["root_hop_port"].Nodup := by decide

def hopShape : Shape := .members [("root_hop_port", .plain)]

theorem faithful_hop : Faithful Any hopShape hopToJson hopOfJson? where
  back p _ := by
    unfold hopToJson hopOfJson?
    refine read_record ?_
    exact (Option.bind_fun_some _).symm.trans (read_optional .u32 nodup_hop (fun _ _ => trivial) 0 rfl rfl)
  blind := by
    refine .record _ fun r r' h => ?_
    rw [h.optional nodup_hop 0 rfl (.plain _)]
  writable p _ := writable_ofPresent <| by
    simp only [List.forall_mem_cons]
    exact ⟨Faithful.u32.writable_map fun _ _ => trivial, by simp⟩
  present _ _ := rfl

def graphShape : Shape := .members [("links", .items AnnouncedLink.shape)]

def graphToJson (links : List AnnouncedLink) : Json :=
  .ofPresent [("links", some (.list (links.map AnnouncedLink.toJson)))]

theorem nodup_graph : ["links"].Nodup := by decide

theorem faithful_graph : Faithful Any graphShape graphToJson graphOfJson? where
  back links _ := by
    unfold graphToJson graphOfJson?
    refine read_record ?_
    exact (Option.bind_fun_some _).symm.trans
      (read_defaulted AnnouncedLink.faithful.list nodup_graph (fun _ _ => trivial) 0 rfl rfl)
  blind := by
    refine .record _ fun r r' h => ?_
    rw [h.defaulted nodup_graph 0 rfl _ (.items AnnouncedLink.faithful.blind)]
  writable links _ := writable_ofPresent <| by
    simp only [List.forall_mem_cons]
    exact ⟨AnnouncedLink.faithful.list.writable_some fun _ _ => trivial, by simp⟩
  present _ _ := rfl

def shape : Shape := .members [("stack_root", .plain), ("graph", graphShape), ("dps", .table hopShape)]

theorem nodup : ["stack_root", "graph", "dps"].Nodup := by decide

theorem faithful_hops : Faithful Any (.table hopShape)
    (fun t : Table String (Option UInt32) => .ofMembers (t.toList.map fun (s, p) => (s, hopToJson p)))
    (Json.table? denoted? hopOfJson?) := Faithful.table (fun s => denoted?_literalOf s) faithful_hop

theorem faithful : Faithful Any shape toJson ofJson? where
  back a _ := by
    unfold toJson ofJson?
    refine read_record ?_
    refine read_defaulted .text nodup trivial 0 rfl ?_
    refine read_defaulted faithful_graph nodup trivial 1 rfl ?_
    refine read_defaulted faithful_hops nodup trivial 2 rfl ?_
    rfl
  blind := by
    refine .record _ fun r r' h => ?_
    rw [h.defaulted nodup 0 rfl _ (.plain _), h.defaulted nodup 1 rfl _ faithful_graph.blind,
      h.defaulted nodup 2 rfl _ faithful_hops.blind]
  writable a _ := writable_ofPresent <| by
    simp only [List.forall_mem_cons]
    exact ⟨Faithful.text.writable_some trivial, faithful_graph.writable_some trivial,
      faithful_hops.writable_some trivial, by simp⟩
  present _ _ := rfl

end Announcement

namespace ConfigHashes

def shape : Shape := .members [("config_files", .plain), ("hashes", .plain), ("error", .plain)]

theorem nodup : ["config_files", "hashes", "error"].Nodup := by decide

theorem faithful : Faithful Any shape toJson ofJson? where
  back h _ := by
    unfold toJson ofJson?
    refine read_record ?_
    refine read_defaulted .text nodup trivial 0 rfl ?_
    refine read_defaulted .text nodup trivial 1 rfl ?_
    refine read_defaulted .text nodup trivial 2 rfl ?_
    rfl
  blind := by
    refine .record _ fun r r' h => ?_
    rw [h.defaulted nodup 0 rfl _ (.plain _), h.defaulted nodup 1 rfl _ (.plain _),
      h.defaulted nodup 2 rfl _ (.plain _)]
  writable h _ := writable_ofPresent <| by
    simp only [List.forall_mem_cons]
    exact ⟨Faithful.text.writable_some trivial, Faithful.text.writable_some trivial,
      Faithful.text.writable_some trivial, by simp⟩
  present _ _ := rfl

end ConfigHashes

namespace ConfigChange

def shape : Shape := .members [("restart_type", .plain), ("config_hash_info", ConfigHashes.shape)]

theorem nodup : ["restart_type", "config_hash_info"].Nodup := by decide

theorem faithful : Faithful Any shape toJson ofJson? where
  back c _ := by
    unfold toJson ofJson?
    refine read_record ?_
    refine read_optional .text nodup (fun _ _ => trivial) 0 rfl ?_
    refine read_optional ConfigHashes.faithful nodup (fun _ _ => trivial) 1 rfl ?_
    rfl
  blind := by
    refine .record _ fun r r' h => ?_
    rw [h.optional nodup 0 rfl (.plain _), h.optional nodup 1 rfl ConfigHashes.faithful.blind]
  writable c _ := writable_ofPresent <| by
    simp only [List.forall_mem_cons]
    exact ⟨Faithful.text.writable_map fun _ _ => trivial, ConfigHashes.faithful.writable_map fun _ _ => trivial,
      by simp⟩
  present _ _ := rfl

end ConfigChange

namespace Event

def connectionShape : Shape := .members [("reason", .plain)]

theorem nodup_connection : ["reason"].Nodup := by decide

theorem faithful_connection : Faithful Any connectionShape connectionToJson connectionOfJson? where
  back reason _ := by
    unfold connectionToJson connectionOfJson?
    refine read_record ?_
    exact (Option.bind_fun_some _).symm.trans (read_required .text nodup_connection trivial 0 rfl rfl)
  blind := by
    refine .record _ fun r r' h => ?_
    rw [h.required nodup_connection 0 rfl (.plain _)]
  writable reason _ := writable_ofPresent <| by
    simp only [List.forall_mem_cons]
    exact ⟨Faithful.text.writable_some trivial, by simp⟩
  present _ _ := rfl

theorem faithful_ports : Faithful Any (.table .plain) portsToJson (Json.table? u32Key? truth?) :=
  Faithful.table u32Key?_numeral .truth

def shape : Shape := .members [
  ("version", .plain), ("time", .plain), ("dp_name", .plain), ("dp_id", .plain), ("event_id", .plain),
  ("debounced", .plain), ("PORT_CHANGE", PortChange.shape), ("PORTS_STATUS", .table .plain),
  ("L2_LEARN", Learn.shape), ("L2_LEARNED_MACS", .items Learn.shape), ("L2_EXPIRE", Expiry.shape),
  ("LAG_CHANGE", LagChange.shape), ("STACK_STATE", StackChange.shape), ("STACK_TOPO_CHANGE", Announcement.shape),
  ("CONFIG_CHANGE", ConfigChange.shape), ("DP_CHANGE", connectionShape)]

theorem nodup : ["version", "time", "dp_name", "dp_id", "event_id", "debounced", "PORT_CHANGE", "PORTS_STATUS",
    "L2_LEARN", "L2_LEARNED_MACS", "L2_EXPIRE", "LAG_CHANGE", "STACK_STATE", "STACK_TOPO_CHANGE", "CONFIG_CHANGE",
    "DP_CHANGE"].Nodup := by decide

/-- The states are numbers of 64 bits, and the time is written so that it reads back. -/
structure Fits (e : Event) : Prop where
  time : Reproduced (.float e.time)
  lag : ∀ l ∈ e.lagChange, l.Fits
  stack : ∀ s ∈ e.stackChange, Signed64 s.state

theorem faithful : Faithful Fits shape toJson ofJson? where
  back e h := by
    unfold toJson ofJson?
    refine read_record ?_
    refine read_optional .u32 nodup (fun _ _ => trivial) 0 rfl ?_
    refine read_defaulted .float nodup h.time 1 rfl ?_
    refine read_optional .text nodup (fun _ _ => trivial) 2 rfl ?_
    refine read_optional .u64 nodup (fun _ _ => trivial) 3 rfl ?_
    refine read_optional .u64 nodup (fun _ _ => trivial) 4 rfl ?_
    refine read_optional .truth nodup (fun _ _ => trivial) 5 rfl ?_
    refine read_optional PortChange.faithful nodup (fun _ _ => trivial) 6 rfl ?_
    refine read_optional faithful_ports nodup (fun _ _ => trivial) 7 rfl ?_
    refine read_optional Learn.faithful nodup (fun _ _ => trivial) 8 rfl ?_
    refine read_optional Learn.faithful.list nodup (fun _ _ _ _ => trivial) 9 rfl ?_
    refine read_optional Expiry.faithful nodup (fun _ _ => trivial) 10 rfl ?_
    refine read_optional LagChange.faithful nodup h.lag 11 rfl ?_
    refine read_optional StackChange.faithful nodup h.stack 12 rfl ?_
    refine read_optional Announcement.faithful nodup (fun _ _ => trivial) 13 rfl ?_
    refine read_optional ConfigChange.faithful nodup (fun _ _ => trivial) 14 rfl ?_
    refine read_optional faithful_connection nodup (fun _ _ => trivial) 15 rfl ?_
    rfl
  blind := by
    refine .record _ fun r r' h => ?_
    rw [h.optional nodup 0 rfl (.plain _), h.defaulted nodup 1 rfl _ (.plain _), h.optional nodup 2 rfl (.plain _),
      h.optional nodup 3 rfl (.plain _), h.optional nodup 4 rfl (.plain _), h.optional nodup 5 rfl (.plain _),
      h.optional nodup 6 rfl PortChange.faithful.blind, h.optional nodup 7 rfl faithful_ports.blind,
      h.optional nodup 8 rfl Learn.faithful.blind, h.optional nodup 9 rfl Learn.faithful.list.blind,
      h.optional nodup 10 rfl Expiry.faithful.blind, h.optional nodup 11 rfl LagChange.faithful.blind,
      h.optional nodup 12 rfl StackChange.faithful.blind, h.optional nodup 13 rfl Announcement.faithful.blind,
      h.optional nodup 14 rfl ConfigChange.faithful.blind, h.optional nodup 15 rfl faithful_connection.blind]
  writable e h := writable_ofPresent <| by
    simp only [List.forall_mem_cons]
    exact ⟨Faithful.u32.writable_map fun _ _ => trivial, Faithful.float.writable_some h.time,
      Faithful.text.writable_map fun _ _ => trivial, Faithful.u64.writable_map fun _ _ => trivial,
      Faithful.u64.writable_map fun _ _ => trivial, Faithful.truth.writable_map fun _ _ => trivial,
      PortChange.faithful.writable_map fun _ _ => trivial, faithful_ports.writable_map fun _ _ => trivial,
      Learn.faithful.writable_map fun _ _ => trivial, Learn.faithful.list.writable_map fun _ _ _ _ => trivial,
      Expiry.faithful.writable_map fun _ _ => trivial, LagChange.faithful.writable_map h.lag,
      StackChange.faithful.writable_map h.stack, Announcement.faithful.writable_map fun _ _ => trivial,
      ConfigChange.faithful.writable_map fun _ _ => trivial, faithful_connection.writable_map fun _ _ => trivial,
      by simp⟩
  present _ _ := rfl

/-- A record that fits is read back from the text that is written of it. So it is from any text of the same
record with more members, of names that it does not know, in the record itself or in any record within. -/
theorem ofBytes?_written (e : Event) (fits : e.Fits) :
    ofBytes? (Utf8.encode (compact e.toJson)) = some e ∧
      ∀ j, Widened shape e.toJson j → ofJson? j = some e ∧
        ∀ bytes, Spells j.tokens bytes → ofBytes? bytes = some e := by
  have hread {j : Json} (h : Widened shape e.toJson j) : ofJson? j = some e :=
    (faithful.blind _ _ h).trans (faithful.back e fits)
  have hbytes {j : Json} {bytes : List UInt8} (h : Widened shape e.toJson j) (spells : Spells j.tokens bytes) :
      ofBytes? bytes = some e := by
    rw [ofBytes?, ofBytes?_spells spells]
    exact hread h
  exact ⟨hbytes (.same _ _) (faithful.writable e fits).spells, fun j h => ⟨hread h, fun _ => hbytes h⟩⟩

section Small

def smallLearn : Learn := ⟨1, "0e:00:00:00:00:01", none, some "10.0.0.1"⟩

def smallEvent : Event := { empty with time := 1.5, learn := some smallLearn }

theorem smallEvent_fits : smallEvent.Fits where
  time := by
    have htext : (JsonNumber.render (.float 1.5)).toList = ['1', '.', '5'] := by decide +kernel
    have hnumeral : numeral? ['1', '.', '5'] = some ⟨false, ['1'], some ['5'], none⟩ := rfl
    have hvalue : Decimal.signed false ((floatOf? ['1'] ['5'] 0).getD Decimal.infinity) = 1.5 := by decide +kernel
    show (numeral? (JsonNumber.render (.float 1.5)).toList).map Numeral.value = some (.float 1.5)
    rw [htext, hnumeral, Option.map_some]
    exact congrArg (fun x => some (JsonNumber.float x)) hvalue
  lag := by simp [smallEvent, empty]
  stack := by simp [smallEvent, empty]

def widerLearn : Json := .ofMembers [("port_no", .ofNat 1), ("eth_src", .ofText "0e:00:00:00:00:01"),
  ("vlan", .truth true), ("l3_src_ip", .ofText "10.0.0.1")]

/-- The same record with a member in front of it and one among those of the host. -/
def widerEvent : Json :=
  .ofMembers [("source", .list [.null]), ("time", .ofFloat 1.5), ("L2_LEARN", widerLearn)]

theorem ofBytes?_written_small :
    ofBytes? (Utf8.encode (compact smallEvent.toJson)) = some smallEvent ∧ ofJson? widerEvent = some smallEvent := by
  have hread := ofBytes?_written smallEvent smallEvent_fits
  have hlearn : Widened Learn.shape smallLearn.toJson widerLearn :=
    .members (.kept (denoted?_literalOf "port_no") rfl (.same _ _)
      (.kept (denoted?_literalOf "eth_src") rfl (.same _ _)
        (.added (denoted?_literalOf "vlan") rfl (.kept (denoted?_literalOf "l3_src_ip") rfl (.same _ _) .nil))))
  have hwider : Widened shape smallEvent.toJson widerEvent :=
    .members (.added (denoted?_literalOf "source") rfl (.kept (denoted?_literalOf "time") rfl (.same _ _)
      (.kept (denoted?_literalOf "L2_LEARN") rfl hlearn .nil)))
  exact ⟨hread.1, (hread.2 widerEvent hwider).1⟩

end Small

end Event

end Fabric

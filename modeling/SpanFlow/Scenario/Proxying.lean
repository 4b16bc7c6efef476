import SpanFlow.Scenario.Submission

namespace SpanFlow.Scenario.Proxying

open Document Submission

def toolkit : Option ToolkitSpec → ProxyToolkit Int Session
  | none => .standard
  | some spec =>
    { permit := fun d s => do
        Run.record "permit" (.list [.text s.display, optText (d.strategy.map ProxyStrategy.display)])
        if s.display ∈ spec.refused then
          return .error (.rejected s d.typeName ("no " ++ s.display ++ " today"))
        else if spec.asksStandard then return ProxyToolkit.standardPermit d s
        else return .ok () }

def shownTarget (e : ExecutorState) : Json :=
  match e.spec.sort with
  | .target _ text => .text text
  | .pool => .bool e.isShutDown
  | _ => .null

def ofKind (e : ExecutorState) : ProxyKind → Json
  | .subclass => .list [.text "subclass", shownTarget e, .bool true]
  | .interface c => .list [.text "interface", .text c.debug, .bool c.isScheduled]
  | .unwrapped => .list [.text "unwrapped", .bool true]

def ofProxy (config : ExecutorConfig) (facts : TargetFacts) (e : ExecutorState) (p : ExecutorProxy) : Json :=
  let inspected := ProxyDescriptor.inspect facts
  let strategy (s : Option ProxyStrategy) : Json := optText (s.map ProxyStrategy.display)
  .obj
    [("strategy", strategy p.descriptor.strategy), ("wrapped", .bool p.isWrapped), ("kind", ofKind e p.kind),
      ("type_name", .text p.descriptor.typeName), ("final_class", .bool p.descriptor.finalClass),
      ("final_methods", .bool p.descriptor.finalMethods), ("preferred", .text p.descriptor.preferred.display),
      ("config", .list [.bool config.enabled, .texts config.ignored.keys, .text config.policy.name]),
      ("inspected_strategy", strategy inspected.strategy), ("same_as_inspected", .bool (p.descriptor = inspected)),
      ("same_target", .bool (p.descriptor.address = facts.address)), ("debug", .text (p.debug "ADDR"))]

def proxy (key target : String) (spec : ProxySpec) : Run Json :=
  withExecutor target fun index route e => do
    match route with
    | .plain =>
      let facts := e.facts index
      let factory : ProxyFactory Int Session := ⟨toolkit spec.toolkit, spec.config⟩
      let made ←
        match spec.name with
        | none => factory.wrap facts
        | some n => factory.wrapNamed n facts
      match made with
      | .error x => return ofError x.kind x.message
      | .ok p =>
        Run.store key (.executor index (.proxy p spec.innerOnly))
        return ofProxy spec.config facts e p
    | _ => return badInput

def tracedCapability (key target : String) : Run Json :=
  withExecutor target fun index route e => do
    match route, e.spec.capability with
    | .plain, some c =>
      Run.store key (.executor index (.capability c))
      return .list [.text c.debug, .bool c.isScheduled]
    | .plain, none => return .null
    | _, _ => return badInput

end SpanFlow.Scenario.Proxying

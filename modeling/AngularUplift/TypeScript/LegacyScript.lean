import AngularUplift.TypeScript.Member

/-!
# Legacy registrations

A directive that is used as an element first becomes a legacy component with a controller of its own. These are
the scripts that register the two.
-/

namespace AngularUplift

/-- The script that registers a legacy component. -/
def legacyComponentSource (moduleName name templateUrl bindings controller : Text) : Text :=
  layout <| Text.unlines <|
    [txt "angular",
      txt ".module('" ++ moduleName ++ txt "')",
      txt ".component('" ++ name ++ txt "', \x7b"] ++
    (if templateUrl.isEmpty then [] else [txt "templateUrl: '" ++ templateUrl ++ txt "',"]) ++
    [txt "bindings: " ++ (if bindings.isEmpty then txt "\x7b\x7d" else bindings) ++
      (if controller.isEmpty then [] else [','])] ++
    (if controller.isEmpty then [] else [txt "controller: '" ++ controller ++ txt "'"]) ++
    [txt "\x7d);"]

/-- The script that registers a controller with an injection array. -/
def legacyControllerSource (moduleName name : Text) (injections : List Text) (body : Text) : Text :=
  layout <| Text.unlines
    [txt "angular",
      txt ".module('" ++ moduleName ++ txt "')",
      opens (txt ".controller('" ++ name ++ txt "', [" ++
        injections.flatMap (fun token => ['\''] ++ token ++ txt "', ") ++
        txt "function (" ++ Text.join (txt ", ") injections ++ txt ")"),
      body,
      txt "\x7d]);"]

end AngularUplift

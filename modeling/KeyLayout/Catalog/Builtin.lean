/-
The catalogs that come with the application: the outlines of symbols, and the texts
of keys that the application itself puts on a keyboard.
-/
import KeyLayout.Catalog.Table

namespace KeyLayout.Catalog

/-- Symbols by name, each with its outline. -/
def builtinSymbols : Table := .ofList [
  ("BackIcon", "M20,11V13H8L13.5,18.5L12.08,19.92L4.16,12L12.08,4.08L13.5,5.5L8,11H20Z"),
  ("BackOneIcon",
    "M22,3H7C6.31,3 5.77,3.35 5.41,3.88L0,12L5.41,20.11C5.77,20.64 6.31,21 7,21H22A2,2 0 0,0 24,19V5A2,2 0 0,0 22,3M19,15.59L17.59,17L14,13.41L10.41,17L9,15.59L12.59,12L9,8.41L10.41,7L14,10.59L17.59,7L19,8.41L15.41,12"),
  ("EnterIcon", "M19,7V11H5.83L9.41,7.41L8,6L2,12L8,18L9.41,16.58L5.83,13H21V7H19Z"),
  ("ShiftIcon", "M15,18V12H17.17L12,6.83L6.83,12H9V18H15M12,4L22,14H17V20H7V14H2L12,4Z"),
  ("SpaceIcon", "M3,15H5V17H19V15H21V19H3V15Z"),
  ("TabIcon",
    "M20,18H22V6H20M11.59,7.41L15.17,11H1V13H15.17L11.59,16.58L13,18L19,12L13,6L11.59,7.41Z"),
  ("MenuIcon", "M3,6H21V8H3V6M3,11H21V13H3V11M3,16H21V18H3V16Z"),
  ("MouseIcon",
    "M11,1.07C7.05,1.56 4,4.92 4,9H11M4,15A8,8 0 0,0 12,23A8,8 0 0,0 20,15V11H4M13,1.07V9H20C20,4.92 16.94,1.56 13,1.07Z"),
  ("SpeakIcon",
    "M14,3.23V5.29C16.89,6.15 19,8.83 19,12C19,15.17 16.89,17.84 14,18.7V20.77C18,19.86 21,16.28 21,12C21,7.72 18,4.14 14,3.23M16.5,12C16.5,10.23 15.5,8.71 14,7.97V16C15.5,15.29 16.5,13.76 16.5,12M3,9V15H7L12,20V4L7,9H3Z"),
  ("SleepIcon",
    "M23,12H17V10L20.39,6H17V4H23V6L19.62,10H23V12M15,16H9V14L12.39,10H9V8H15V10L11.62,14H15V16M7,20H1V18L4.39,14H1V12H7V14L3.62,18H7V20Z"),
  ("NumericAndSymbolsIcon",
    "M4,17V9H2V7H6V17H4M22,15C22,16.11 21.1,17 20,17H16V15H20V13H18V11H20V9H16V7H20A2,2 0 0,1 22,9V10.5A1.5,1.5 0 0,1 20.5,12A1.5,1.5 0 0,1 22,13.5V15M14,15V17H8V13C8,11.89 8.9,11 10,11H12V9H8V7H12A2,2 0 0,1 14,9V11C14,12.11 13.1,13 12,13H10V15H14Z"),
  ("AlphaIcon",
    "M8,7A2,2 0 0,0 6,9V17H8V13H10V17H12V9A2,2 0 0,0 10,7H8M8,9H10V11H8V9M14,7V17H18A2,2 0 0,0 20,15V13.5A1.5,1.5 0 0,0 18.5,12A1.5,1.5 0 0,0 20,10.5V9A2,2 0 0,0 18,7H14M16,9H18V11H16V9M16,13H18V15H16V13Z"),
  ("PluginIcon",
    "M20.5,11H19V7C19,5.89 18.1,5 17,5H13V3.5A2.5,2.5 0 0,0 10.5,1A2.5,2.5 0 0,0 8,3.5V5H4A2,2 0 0,0 2,7V10.8H3.5C5,10.8 6.2,12 6.2,13.5C6.2,15 5,16.2 3.5,16.2H2V20A2,2 0 0,0 4,22H7.8V20.5C7.8,19 9,17.8 10.5,17.8C12,17.8 13.2,19 13.2,20.5V22H17A2,2 0 0,0 19,20V16H20.5A2.5,2.5 0 0,0 23,13.5A2.5,2.5 0 0,0 20.5,11Z")]

/-- Texts by name. -/
def builtinStrings : Table := .ofList [
  ("BACK", "Back"),
  ("ENTER", "Enter"),
  ("MENU", "Menu"),
  ("SHIFT", "Shift"),
  ("SPACE", "Space"),
  ("SPEAK", "Speak"),
  ("SLEEP", "Sleep")]

end KeyLayout.Catalog

/-
# Powers of natural numbers

Powers of natural numbers are read in one way everywhere, whichever other libraries are imported.
-/

attribute [instance (high)] instPowNat

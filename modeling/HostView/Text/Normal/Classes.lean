/-!
# The classes of marks

Marks that follow a character are put in the order of their classes. Each entry is a run of marks of
one class: how far the first is from that of the run before, how many there are and their class, all
in base 36.
-/

namespace HostView.Normal

/-- The runs of marks that have a class. -/
def classEntries : String :=
  String.join [
    "lc l 6e,l 1 6g,1 4 64,4 1 6g,1 1 60,1 5 64,5 2 5m,2 4 64,4 2 5m,2 b 64,b 5 1,5 4 64,4 3 6e,",
    "5 1 6e,3 1 6o,1 1 6e,1 3 64,3 3 6e,3 2 64,3 3 6e,3 4 64,4 1 6e,1 1 6g,1 2 64,2 1 6e,1 1 6h,",
    "1 2 6i,2 1 6h,1 2 6i,2 1 6h,1 d 6e,80 5 6e,7i 1 64,1 4 6e,4 1 64,1 3 6e,3 1 66,1 1 64,",
    "1 6 6e,6 6 64,6 2 6e,2 1 64,1 2 6e,2 1 66,1 1 6c,1 1 6e,1 1 a,1 1 b,1 1 c,1 1 d,1 1 e,1 1 f,",
    "1 1 g,1 1 h,1 1 i,1 2 j,2 1 k,1 1 l,1 1 m,2 1 n,2 1 o,1 1 p,2 1 6e,1 1 64,2 1 i,21 8 6e,",
    "8 1 u,1 1 v,1 1 w,1d 1 r,1 1 s,1 1 t,1 1 u,1 1 v,1 1 w,1 1 x,1 1 y,1 2 6e,2 2 64,2 5 6e,",
    "5 1 64,1 2 6e,2 1 64,h 1 z,2u 7 6e,9 4 6e,4 1 64,1 1 6e,3 2 6e,3 1 64,1 2 6e,2 1 64,10 1 10,",
    "v 1 6e,1 1 64,1 2 6e,2 1 64,1 2 6e,2 3 64,3 1 6e,1 2 64,2 1 6e,1 1 64,1 3 6e,3 1 64,1 1 6e,",
    "1 1 64,1 1 6e,1 1 64,1 1 6e,1 1 64,1 2 6e,4i 7 6e,7 1 64,1 1 6e,a 1 64,p 4 6e,5 9 6e,a 3 6e,",
    "4 5 6e,1c 3 64,1q 2 6e,2 3 64,3 4 6e,1a 5 6e,5 5 64,5 e 6e,f 1 64,1 2 6e,2 1 64,1 2 6e,",
    "2 1 64,1 3 6e,3 3 64,3 1 r,1 1 s,1 1 t,1 3 6e,3 1 64,1 2 6e,2 2 64,2 5 6e,1t 1 7,h 1 9,",
    "4 1 6e,1 1 64,1 2 6e,2x 1 7,h 1 9,1d 1 6e,1q 1 7,h 1 9,33 1 7,h 1 9,33 1 7,h 1 9,3k 1 9,",
    "33 1 7,h 1 9,8 1 2c,1 1 2j,2u 1 7,h 1 9,32 2 9,i 1 9,3h 1 9,32 2 2v,2 1 9,e 4 2z,34 2 3a,",
    "2 1 9,e 4 3e,28 2 64,t 1 64,2 1 64,2 1 60,1k 1 3l,1 1 3m,2 1 3o,6 4 3m,6 1 3m,2 2 6e,2 1 9,",
    "2 2 6e,1s 1 64,35 1 7,2 2 9,2c 1 64,k0 3 6e,qf 2 9,w 1 9,4e 1 9,b 1 6e,5o 1 6c,40 1 66,",
    "1 1 6e,1 1 64,64 1 6e,1 1 64,20 1 9,l 8 6e,a 1 64,1d 5 6e,5 6 64,6 2 6e,2 1 64,2 2 64,",
    "2 2 6e,2 2 64,2 5 6e,5 1 64,1 4 6e,2x 1 7,g 1 9,13 1 6e,1 1 64,1 7 6e,1p 2 9,1o 1 7,c 2 9,",
    "1x 1 7,49 3 6e,4 1 1,1 5 64,5 2 6e,2 4 64,4 1 6e,2 7 1,b 1 64,7 1 6e,4 2 6e,5k 2 6e,2 1 64,",
    "1 7 6e,7 1 64,1 2 6e,2 1 6i,1 1 5y,1 1 64,1 1 5m,1 11 6e,11 1 6g,1 2 6c,2 1 64,1 1 62,",
    "1 1 6e,1 1 6h,1 1 64,1 1 6e,1 1 64,k1 2 6e,2 2 1,2 4 6e,4 3 1,3 2 6e,6 1 6e,4 2 1,2 1 6e,",
    "1 1 64,1 1 6e,1 2 1,2 4 64,4 1 6e,2db 3 6e,40 1 9,2p w 6e,ga 1 62,1 1 6c,1 1 6g,1 1 66,",
    "1 2 68,2z 2 8,n9y 1 6e,5 a 6e,16 2 6e,2a 2 6e,7q 1 9,12 1 9,48 1 9,s i 6e,23 3 64,14 1 9,",
    "2o 1 7,d 1 9,6o 1 6e,2 2 6e,2 1 64,3 2 6e,7 2 6e,3 1 6e,1h 1 9,6v 1 9,fn5 1 q,le 7 6e,",
    "7 7 64,7 2 6e,r3 1 64,6b 1 64,46 5 6e,1av 1 64,2 1 6e,15 1 6e,1 1 1,1 1 64,5 1 9,4m 1 6e,",
    "1 1 64,fy 4 6e,1x 5 6e,8y 2 6e,2a 3 64,21 2 64,2 3 6e,3 1 64,1 1 6e,1 4 64,1h 1 6e,1 1 64,",
    "1 1 6e,1 1 64,5d 1 9,16 1 9,f 1 9,1m 1 9,1 1 7,1y 3 6e,1f 2 9,1s 1 7,25 1 9,a 1 7,2z 1 9,",
    "1 1 7,4z 1 7,1 1 9,29 2 7,i 1 9,p 7 6e,a 5 6e,2m 3 9,38 1 9,4 1 7,o 1 6e,2s 1 9,1 1 7,",
    "70 1 9,1 1 7,3j 1 9,3b 1 9,1 1 7,38 1 9,7i 1 9,1 1 7,77 2 9,6 1 7,4d 1 9,2c 1 9,j 1 9,",
    "2a 1 9,bq 1 9,77 1 7,2 2 9,2b 1 9,bu 2 9,d0u 1 9,1xd 5 1,1s 7 6e,xs 2 6,f5a 1 1,43r 2 60,",
    "2 3 1,6 1 6a,1 5 60,d 8 64,a 5 6e,5 2 64,w 4 6e,48 3 6e,2pq 7 6e,8 h 6e,j 7 6e,8 2 6e,",
    "3 5 6e,2x 1 6e,4h 7 6e,am 1 6e,1q 4 6e,e8 2 6g,2 1 64,1 1 6e,73 1 6e,1 1 64,kh 7 64,38 6 6e,",
    "6 1 7"]

end HostView.Normal
